import ApiTypes.Proofs.Walk.Remembered

/-!
# A request after others, and alone

A walk is compared with the same walk from a state that remembers more (`Ahead`). What the larger
state remembers it finds at once, and the smaller one resolves nothing but that meanwhile
(`Walked.within`). So a walk that succeeds from the smaller state succeeds from the larger one
(`Walked.ahead`), and one that fails there, and not because of a cycle, fails alike
(`Walked.ahead_error`). For this the larger state must cover what both remember in the end. Hence a
request that fails after others fails alone as well, unless one of the others failed with a cycle
and stored something (`Resolver.fails_alone`).
-/

set_option autoImplicit false

namespace ApiTypes

/-- A state that is resolving what another one is resolving, and remembers what that one does and
what a store does. -/
structure Ahead (base : TypeStore) (s t : WalkState) : Prop where
  /-- The same schemas are being resolved. -/
  pending_eq : s.pending = t.pending
  /-- It remembers what the other state and the store remember. -/
  remembers_iff : ∀ key, s.types.Remembers key ↔ t.types.Remembers key ∨ base.Remembers key

namespace Ahead

variable {r : Resolver} {path : Option String} {base : TypeStore} {s t s₁ t₁ s' t' : WalkState}
  {v w : Visit}

theorem push (h : Ahead base s t) (key : MemoKey) : Ahead base (s.push key) (t.push key) where
  pending_eq := congrArg (key :: ·) h.pending_eq
  remembers_iff := h.remembers_iff

theorem start (h : Ahead base s t) (key : MemoKey) : Ahead base (s.start key) (t.start key) where
  pending_eq := congrArg (key :: ·) h.pending_eq
  remembers_iff other := by
    rw [s.remembers_start, t.remembers_start, h.remembers_iff, or_assoc]

/-- The same schema is settled in both states. -/
theorem adds {key : MemoKey} (h : Ahead base s₁ t₁) (hs : s₁.Adds key s') (ht : t₁.Adds key t') :
    Ahead base s' t' where
  pending_eq := by
    have hcons : key :: s'.pending = key :: t'.pending := by
      rw [← hs.pending_eq, ← ht.pending_eq]
      exact h.pending_eq
    exact (List.cons.inj hcons).2
  remembers_iff other := by
    rw [hs.remembers_iff, ht.remembers_iff, h.remembers_iff, or_assoc]

/-- The state that is behind comes to remember what the store does. -/
theorem within (h : Ahead base s t) (hpending : t'.pending = t.pending)
    (hgrows : Grows t.types t'.types)
    (hwithin : ∀ key, t'.types.Remembers key → t.types.Remembers key ∨ base.Remembers key) :
    Ahead base s t' where
  pending_eq := h.pending_eq.trans hpending.symm
  remembers_iff key := by
    rw [h.remembers_iff]
    refine ⟨Or.imp_left hgrows.remembers, fun hkey => ?_⟩
    exact hkey.elim (hwithin key) Or.inr

theorem enters (h : Ahead base s t) (hin : r.Enters path v t w)
    (hnew : ¬ base.Remembers (r.keyOf path w)) : r.Enters path v s w where
  enter_eq := hin.enter_eq
  lookup_eq := by
    rw [← TypeStore.not_remembers_iff, h.remembers_iff]
    rintro (hkey | hkey)
    · exact TypeStore.not_remembers_iff.mpr hin.lookup_eq hkey
    · exact hnew hkey
  notMem := by
    rw [h.pending_eq]
    exact hin.notMem

end Ahead

namespace Walked

variable {r : Resolver} {path : Option String} {depth : Nat} {c : Call} {s t t' : WalkState}
  {out : Except Error c.Out} {base : TypeStore} {v w : Visit}

/-- **A call for what a store remembers resolves nothing else**, if it succeeds and the store covers
what both remember in the end. -/
theorem within (hd : r.description.Tidy) (h : Walked r path depth c t out t') {told : c.Out}
    (hok : out = .ok told) (hbase : r.CoversShared path base t'.types)
    (hc : c.All (Visit.Proper r.description)) (hin : c.All (r.Found path base)) :
    ∀ key, t'.types.Remembers key → t.types.Remembers key ∨ base.Remembers key := by
  -- The store covers a schema that the call settles, so it remembers those below it as well: this
  -- is what the induction hypothesis asks for.
  induction h with
  | deep => cases hok
  | strayed hv => cases hok
  | found hv hl => exact fun _ => Or.inl
  | cyclic hv hl hp => cases hok
  | fault henters hdemand => cases hok
  | @block depth v w t inner last henters hdemand =>
      have hadds := @Resolver.adds_block r path w t (t.types.size + inner.length) inner last
      have hkey := Resolver.Found.remembers hin henters.enter_eq
      intro other hother
      rcases (hadds.remembers_iff other).mp hother with rfl | hold
      · exact Or.inr hkey
      · exact Or.inl hold
  | wrapperFails henters hdemand _ ih => cases hok
  | @wrapper depth v w t t₁ item shape id henters hdemand hcall ih =>
      have hadds := Resolver.adds_wrapper hcall.pending_eq (shape.rename fun _ => id)
      have hw := Visit.Proper.entered hc henters.enter_eq
      have hkey := Resolver.Found.remembers hin henters.enter_eq
      have hitem := (hbase w hw hkey hadds.new).item hdemand
      have hbelow := ih rfl (hbase.mono fun _ => hadds.old) (hw.item hd hdemand) hitem
      intro other hother
      rcases (hadds.remembers_iff other).mp hother with rfl | hold
      · exact Or.inr hkey
      · exact hbelow other hold
  | compositeFails henters hdemand _ ih => cases hok
  | @composite depth v w t t₁ children shape found henters hdemand hcall ih =>
      have hadds := Resolver.adds_composite hcall.pending_eq t.types.size
        (Demand.filled shape found)
      have hw := Visit.Proper.entered hc henters.enter_eq
      have hkey := Resolver.Found.remembers hin henters.enter_eq
      have hchildren := (hbase w hw hkey hadds.new).children hdemand
      have hbelow := ih rfl (hbase.mono fun _ => hadds.old) (hw.children hd hdemand) hchildren
      intro other hother
      rcases (hadds.remembers_iff other).mp hother with rfl | hold
      · exact Or.inr hkey
      · rcases hbelow other hold with hstart | hother
        · rcases (t.remembers_start _ other).mp hstart with rfl | hold
          · exact Or.inr hkey
          · exact Or.inl hold
        · exact Or.inr hother
  | nil => exact fun _ => Or.inl
  | headFails _ ih => cases hok
  | tailFails _ _ ih₁ ih₂ => cases hok
  | cons _ hrest ih₁ ih₂ =>
      have hhead := ih₁ rfl (hbase.mono fun _ => hrest.grows.remembers) hc.head hin.head
      have htail := ih₂ rfl hbase hc.tail hin.tail
      intro other hother
      exact (htail other hother).elim (hhead other) Or.inr

/-- What the store remembers is found at once in the state that is ahead. -/
theorem ahead_of_remembers (hd : r.description.Tidy) {id : TypeId}
    (h : Walked r path (depth + 1) (.one v) t (.ok id) t')
    (hbase : r.CoversShared path base t'.types)
    (hc : (Call.one v).All (Visit.Proper r.description)) (hin : r.enter v = .ok w)
    (hkey : base.Remembers (r.keyOf path w)) (hs : Ahead base s t) :
    ∃ id' s', Walked r path (depth + 1) (.one v) s (.ok id') s' ∧ Ahead base s' t' := by
  obtain ⟨id', hl⟩ := (hs.remembers_iff _).mpr (Or.inr hkey)
  refine ⟨id', s, .found hin hl, hs.within h.pending_eq h.grows ?_⟩
  exact h.within hd rfl hbase hc (Call.All.one_iff.mpr ⟨w, hin, hkey⟩)

/-- **A call that succeeds does so from a state that is ahead**, if the store covers what both
remember in the end. -/
theorem ahead (hd : r.description.Tidy) (h : Walked r path depth c t out t') {told : c.Out}
    (hok : out = .ok told) (hbase : r.CoversShared path base t'.types)
    (hc : c.All (Visit.Proper r.description)) (hs : Ahead base s t) :
    ∃ told' s', Walked r path depth c s (.ok told') s' ∧ Ahead base s' t' := by
  -- A schema that the store remembers is found in the state ahead, and one that it does not is
  -- resolved in both states alike.
  induction h generalizing s with
  | deep => cases hok
  | strayed hv => cases hok
  | @found depth v w t id hv hl =>
      obtain ⟨id', hl'⟩ := (hs.remembers_iff _).mpr (Or.inl ⟨id, hl⟩)
      exact ⟨id', s, .found hv hl', hs⟩
  | cyclic hv hl hp => cases hok
  | fault hin hdemand => cases hok
  | @block depth v w t inner last hin hdemand =>
      by_cases hkey : base.Remembers (r.keyOf path w)
      · exact ahead_of_remembers hd (.block hin hdemand) hbase hc hin.enter_eq hkey hs
      · exact ⟨_, _, .block (hs.enters hin hkey) hdemand,
          (hs.push _).adds (Resolver.adds_block ..) (Resolver.adds_block ..)⟩
  | wrapperFails hin hdemand _ ih => cases hok
  | @wrapper depth v w t t₁ item shape id hin hdemand hcall ih =>
      by_cases hkey : base.Remembers (r.keyOf path w)
      · exact ahead_of_remembers hd (.wrapper hin hdemand hcall) hbase hc hin.enter_eq hkey hs
      · have hadds := Resolver.adds_wrapper hcall.pending_eq (shape.rename fun _ => id)
        have hw := Visit.Proper.entered hc hin.enter_eq
        obtain ⟨id', s₁, hcall', hs₁⟩ := ih rfl (hbase.mono fun _ => hadds.old)
          (hw.item hd hdemand) (hs.push _)
        exact ⟨_, _, .wrapper (hs.enters hin hkey) hdemand hcall',
          hs₁.adds (Resolver.adds_wrapper hcall'.pending_eq _) hadds⟩
  | compositeFails hin hdemand _ ih => cases hok
  | @composite depth v w t t₁ children shape found hin hdemand hcall ih =>
      by_cases hkey : base.Remembers (r.keyOf path w)
      · exact ahead_of_remembers hd (.composite hin hdemand hcall) hbase hc hin.enter_eq hkey hs
      · have hadds := Resolver.adds_composite hcall.pending_eq t.types.size
          (Demand.filled shape found)
        have hw := Visit.Proper.entered hc hin.enter_eq
        obtain ⟨found', s₁, hcall', hs₁⟩ := ih rfl (hbase.mono fun _ => hadds.old)
          (hw.children hd hdemand) (hs.start _)
        exact ⟨_, _, .composite (hs.enters hin hkey) hdemand hcall',
          hs₁.adds (Resolver.adds_composite hcall'.pending_eq _ _) hadds⟩
  | nil => exact ⟨[], s, .nil, hs⟩
  | headFails _ ih => cases hok
  | tailFails _ _ ih₁ ih₂ => cases hok
  | cons _ hrest ih₁ ih₂ =>
      obtain ⟨id', s₁, hhead, hs₁⟩ :=
        ih₁ rfl (hbase.mono fun _ => hrest.grows.remembers) hc.head hs
      obtain ⟨others', s₂, htail, hs₂⟩ := ih₂ rfl hbase hc.tail hs₁
      exact ⟨_, s₂, .cons hhead htail, hs₂⟩

/-- A schema at which a call fails, and not because of a cycle, is remembered in no store that
covers what it remembers. -/
theorem not_remembers_of_error (hd : r.description.Tidy) {e : Error}
    (h : Walked r path depth (.one v) t (.error e) t') (hplain : e.Plain)
    (hbase : r.CoversShared path base base) (hc : (Call.one v).All (Visit.Proper r.description))
    (hin : r.enter v = .ok w) : ¬ base.Remembers (r.keyOf path w) := by
  intro hkey
  obtain ⟨x, hx, hdoomed⟩ := h.doomed rfl hplain
  cases List.mem_singleton.mp hx
  exact hbase.not_doomed hd (.entered hc hin) hkey (hdoomed w hin)

/-- **A call that fails, and not because of a cycle, fails alike from a state that is ahead**, if
the store covers what it remembers. -/
theorem ahead_error (hd : r.description.Tidy) (h : Walked r path depth c t out t') {e : Error}
    (he : out = .error e) (hplain : e.Plain) (hbase : r.CoversShared path base base)
    (hc : c.All (Visit.Proper r.description)) (hs : Ahead base s t) :
    ∃ s', Walked r path depth c s (.error e) s' := by
  -- Each schema on the way to the failure is doomed, so the store does not remember it, and it is
  -- entered in the state ahead too.
  induction h generalizing s with
  | deep =>
      cases he
      exact absurd hplain id
  | strayed hv =>
      cases he
      exact ⟨s, .strayed hv⟩
  | found hv hl => cases he
  | cyclic hv hl hp =>
      cases he
      exact absurd hplain id
  | @fault depth v w t e' hin hdemand =>
      cases he
      have hkey := not_remembers_of_error hd (@Walked.fault r path depth v w t e hin hdemand) hplain
        hbase hc hin.enter_eq
      exact ⟨s, .fault (hs.enters hin hkey) hdemand⟩
  | block hin hdemand => cases he
  | @wrapperFails depth v w t t₁ item shape e' hin hdemand hcall ih =>
      cases he
      have hkey := not_remembers_of_error hd (.wrapperFails hin hdemand hcall) hplain hbase hc
        hin.enter_eq
      have hw := Visit.Proper.entered hc hin.enter_eq
      obtain ⟨s₁, hcall'⟩ := ih rfl (hw.item hd hdemand) (hs.push _)
      exact ⟨_, .wrapperFails (hs.enters hin hkey) hdemand hcall'⟩
  | wrapper hin hdemand _ ih => cases he
  | @compositeFails depth v w t t₁ children shape e' hin hdemand hcall ih =>
      cases he
      have hkey := not_remembers_of_error hd (.compositeFails hin hdemand hcall) hplain hbase hc
        hin.enter_eq
      have hw := Visit.Proper.entered hc hin.enter_eq
      obtain ⟨s₁, hcall'⟩ := ih rfl (hw.children hd hdemand) (hs.start _)
      exact ⟨_, .compositeFails (hs.enters hin hkey) hdemand hcall'⟩
  | composite hin hdemand _ ih => cases he
  | nil => cases he
  | headFails _ ih =>
      cases he
      obtain ⟨s₁, hhead⟩ := ih rfl hc.head hs
      exact ⟨s₁, .headFails hhead⟩
  | tailFails hhead _ ih₁ ih₂ =>
      cases he
      -- The schemas before the one that fails are resolved from both states.
      obtain ⟨id', s₁, hhead', hs₁⟩ := hhead.ahead hd rfl (hbase.of_self _) hc.head hs
      obtain ⟨s₂, htail'⟩ := ih₂ rfl hc.tail hs₁
      exact ⟨s₂, .tailFails hhead' htail'⟩
  | cons _ _ ih₁ ih₂ => cases he

end Walked

/-! ## Requests -/

namespace Answered

variable {r : Resolver} {q : Request} {s t t' : WalkState} {base : TypeStore}

/-- **A request that succeeds does so from a state that is ahead**, if the store covers what both
remember in the end. -/
theorem ahead (hd : r.description.Tidy) {told : Resolved} (h : Answered r q t (.ok told) t')
    (hq : q.Proper r.description) (hbase : ∀ path, r.CoversShared path base t'.types)
    (hs : Ahead base s t) : ∃ told' s', Answered r q s (.ok told') s' := by
  have hv := Call.All.one_iff.mpr (hq.visit hd)
  cases h with
  | component h =>
      obtain ⟨id', s', h', _⟩ := h.ahead hd rfl (hbase none) hv hs
      exact ⟨_, s', .component h'⟩
  | shared hin hdemand h =>
      obtain ⟨id', s', h', _⟩ := h.ahead hd rfl (hbase _)
        (Call.All.one_iff.mpr (.entered hv hin)) hs
      exact ⟨_, s', .shared hin hdemand h'⟩
  | block hin hdemand => exact ⟨_, _, .block hin hdemand⟩
  | @wrapper path use n name w t t₁ item shape id hin hdemand h =>
      have hshared : r.CoversShared path base t₁.types :=
        (hbase path).mono fun key =>
          (Resolver.remembers_owned (fun _ => TypeStore.lookup_add ..) _ key).mpr
      obtain ⟨id', s', h', _⟩ := h.ahead hd rfl hshared
        ((Visit.Proper.entered hv hin).useItem hd hdemand) hs
      exact ⟨_, _, .wrapper hin hdemand h'⟩

/-- **A request that fails, and not because of a cycle, fails alike from a state that is ahead**, if
the store covers what it remembers. -/
theorem ahead_error (hd : r.description.Tidy) {e : Error} (h : Answered r q t (.error e) t')
    (hplain : e.Plain) (hq : q.Proper r.description) (hbase : ∀ path, r.CoversShared path base base)
    (hs : Ahead base s t) : ∃ s', Answered r q s (.error e) s' := by
  have hv := Call.All.one_iff.mpr (hq.visit hd)
  cases h with
  | componentFails h =>
      obtain ⟨s', h'⟩ := h.ahead_error hd rfl hplain (hbase none) hv hs
      exact ⟨s', .componentFails h'⟩
  | strayed hin => exact ⟨s, .strayed hin⟩
  | sharedFails hin hdemand h =>
      obtain ⟨s', h'⟩ := h.ahead_error hd rfl hplain (hbase _)
        (Call.All.one_iff.mpr (.entered hv hin)) hs
      exact ⟨s', .sharedFails hin hdemand h'⟩
  | fault hin hdemand => exact ⟨s, .fault hin hdemand⟩
  | wrapperFails hin hdemand h =>
      obtain ⟨s', h'⟩ := h.ahead_error hd rfl hplain (hbase _)
        ((Visit.Proper.entered hv hin).useItem hd hdemand) hs
      exact ⟨s', .wrapperFails hin hdemand h'⟩

end Answered

/-! ## Requests after others -/

namespace Resolver

variable {r : Resolver} {s : WalkState} {qs : List Request} {q : Request} {e : Error}

/-- The state after requests is ahead of the one before them. -/
theorem ahead_after (qs : List Request) (s : WalkState) :
    Ahead (r.after qs s).types (r.after qs s) s where
  pending_eq := pending_after qs s
  remembers_iff _ := ⟨Or.inr, fun h => h.elim (grows_after qs s).remembers fun hkey => hkey⟩

/-- **A request that fails after others fails alone**, unless one of the others failed with a cycle
and stored something. It fails alike, or with a cycle, unless one of the others failed and stored
something. -/
theorem fails_alone (hd : r.description.Tidy) (hqs : ∀ p ∈ qs, p.Proper r.description)
    (hq : q.Proper r.description) (hs : r.Settled (Visit.Proper r.description) s)
    (hharmless : r.CyclesHarmless qs s)
    (h : ((r.ask q).outcome (r.after qs s)).1 = .error e) :
    ∃ e', ((r.ask q).outcome s).1 = .error e' ∧
      (r.Harmless qs s → e' = e ∨ ∃ location, e' = .cyclicReference location) := by
  have hans := answered_ask (r := r) q s
  cases hout : ((r.ask q).outcome s).1 with
  | ok told =>
      exfalso
      rw [hout] at hans
      -- It would be answered alike after the others: what they left behind for schemas that lead to
      -- a failure is not met on the way.
      have haccounted := accounted_after hd hqs hharmless hs.accounted
      have hpending : (r.after qs s).pending = [] := (pending_after qs s).trans hs.pending_eq
      obtain ⟨told', s', hafter⟩ := hans.ahead hd hq
        (haccounted.coversShared hd hpending (hans.settled hd hq hs)) (ahead_after qs s)
      rw [hafter.outcome_eq] at h
      cases h
  | error e' =>
      rw [hout] at hans
      refine ⟨e', rfl, fun hall => ?_⟩
      rcases hans.plain_or_cycle with hplain | hcycle
      · have hsettled := hall.settled hd hqs hs
        obtain ⟨s', hafter⟩ :=
          hans.ahead_error hd hplain hq hsettled.coversShared (ahead_after qs s)
        rw [hafter.outcome_eq] at h
        exact Or.inl (Except.error.inj h)
      · exact Or.inr hcycle

end Resolver

end ApiTypes

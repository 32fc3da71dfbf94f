import ApiTypes.Proofs.OpenApi.Tidy
import ApiTypes.Proofs.Walk.Alone
import ApiTypes.Proofs.Walk.Purposes
import ApiTypes.Proofs.Walk.Recursion

/-!
# What is being resolved

The schemas that are being resolved are the same before and after each call, however it ends, so
that nothing is being resolved between requests. A request that fails with a cycle therefore closes
it itself: at a chain of references that comes back, or at a schema that it was resolving when it
came to it again (`Answered.closes`). An earlier request has a part in it only through what it
stored: one that failed with a cycle may have reserved slots, and where these are found, a cycle is
entered at another place than before. Without such a request, one that fails after others fails
alone (`Resolver.fails_alone`).
-/

set_option autoImplicit false

namespace ApiTypes

/-! ## Where a cycle is closed -/

namespace Resolver

/-- A visit closes a cycle while some schemas are being resolved: it is about a chain of references
that comes back, or about one of these schemas that may not be found. -/
def Closes (r : Resolver) (path : Option String) (pending : List MemoKey) (u : Visit)
    (types : TypeStore) (location : String) : Prop :=
  r.enter u = .error (.cyclicReference location) ∨
  ∃ w, r.enter u = .ok w ∧ r.keyOf path w ∈ pending ∧
    types.lookup (r.keyOf path w) = none ∧ location = w.node.key.text

/-- A call gets to a visit that closes a cycle: for one schema from that schema, for several ones
from one of them, those before it being resolved. -/
inductive ClosesIn (r : Resolver) (path : Option String) (depth : Nat) (location : String) :
    Call → WalkState → Prop
  | one {v u : Visit} {s t : WalkState} {stack : List MemoKey} :
      r.Descends path v s stack u t → r.Closes path t.pending u t.types location →
      ClosesIn r path depth location (.one v) s
  | each {c : Child} {u : Visit} {s s₁ t : WalkState} {found : List (TypeId × Bool)}
      {stack : List MemoKey} (before rest : List Child) :
      Walked r path depth (.each before) s (.ok found) s₁ →
      r.Descends path c.visit s₁ stack u t → r.Closes path t.pending u t.types location →
      ClosesIn r path depth location (.each (before ++ c :: rest)) s

end Resolver

/-- **A walk that fails with a cycle gets to a visit that closes it.** -/
theorem Walked.closesIn {r : Resolver} {path : Option String} {depth : Nat} {c : Call}
    {s s' : WalkState} {out : Except Error c.Out} (h : Walked r path depth c s out s')
    {location : String} (hout : out = .error (.cyclicReference location)) :
    r.ClosesIn path depth location c s := by
  induction h with
  | deep => cases hout
  | strayed hv =>
      cases hout
      exact .one .here (Or.inl hv)
  | found hv hl => cases hout
  | @cyclic depth v w s hv hl hp =>
      cases hout
      exact .one .here (Or.inr ⟨w, hv, hp, hl, rfl⟩)
  | fault hin hd =>
      cases hout
      exact absurd (Resolver.plain_of_demand hd) id
  | block hin hd => cases hout
  | wrapperFails hin hd _ ih =>
      cases hout
      cases ih rfl with
      | one hbelow hcloses => exact .one (.call (.item hin hd) hbelow) hcloses
  | wrapper hin hd _ ih => cases hout
  | compositeFails hin hd _ ih =>
      cases hout
      cases ih rfl with
      | each before rest hbefore hbelow hcloses =>
          exact .one (.call (.child hin hd hbefore) hbelow) hcloses
  | composite hin hd _ ih => cases hout
  | nil => cases hout
  | @headFails depth c rest s s₁ e _ ih =>
      cases hout
      cases ih rfl with
      | one hbelow hcloses => exact .each [] rest .nil hbelow hcloses
  | @tailFails depth c rest s s₁ s₂ e id hhead _ ih₁ ih₂ =>
      cases hout
      cases ih₂ rfl with
      | each before rest hbefore hbelow hcloses =>
          -- The first schema is one more of those that are resolved before the cycle is closed.
          exact .each (c :: before) rest (.cons hhead hbefore) hbelow hcloses
  | cons _ _ ih₁ ih₂ => cases hout

/-- **A request that fails with a cycle closes it**, at a schema that was being resolved before it,
or that it is resolving. -/
theorem Answered.closes {r : Resolver} {q : Request} {s s' : WalkState} {location : String}
    (h : Answered r q s (.error (.cyclicReference location)) s') :
    r.enter q.visit = .error (.cyclicReference location) ∨
    ∃ path v stack u t, r.Begins q path v ∧ r.Descends path v s stack u t ∧
      r.Closes path (stack ++ s.pending) u t.types location := by
  -- A request starts with what was being resolved before, and adds the schemas that it enters.
  have hcall : ∀ {path : Option String} {depth : Nat} {v : Visit},
      Walked r path depth (.one v) s (.error (.cyclicReference location)) s' →
      ∃ stack u t, r.Descends path v s stack u t ∧
        r.Closes path (stack ++ s.pending) u t.types location := by
    intro path depth v hw
    cases hw.closesIn rfl with
    | one hbelow hcloses =>
        rw [hbelow.pending_eq] at hcloses
        exact ⟨_, _, _, hbelow, hcloses⟩
  cases h with
  | componentFails hw =>
      obtain ⟨stack, u, t, hcloses⟩ := hcall hw
      exact Or.inr ⟨_, _, stack, u, t, .component, hcloses⟩
  | strayed hin => exact Or.inl hin
  | sharedFails hin hd hw =>
      obtain ⟨stack, u, t, hcloses⟩ := hcall hw
      exact Or.inr ⟨_, _, stack, u, t, .shared hin hd, hcloses⟩
  | fault hin hd => exact absurd (Resolver.plain_of_useDemand hd) id
  | wrapperFails hin hd hw =>
      obtain ⟨stack, u, t, hcloses⟩ := hcall hw
      exact Or.inr ⟨_, _, stack, u, t, .item hin hd, hcloses⟩

/-! ## Requests that store nothing -/

namespace Resolver

variable {r : Resolver} {s : WalkState} {qs : List Request} {q : Request} {e : Error}

theorem harmless_nil : r.Harmless [] s := by
  intro before p rest e heq
  cases before with
  | nil => cases heq
  | cons _ _ => cases heq

/-- A request that stores nothing if it fails, and others after it. -/
theorem harmless_cons (hq : ∀ e, ((r.ask q).outcome s).1 = .error e → ((r.ask q).outcome s).2 = s)
    (h : r.Harmless qs ((r.ask q).outcome s).2) : r.Harmless (q :: qs) s := by
  intro before p rest e heq hfails
  cases before with
  | nil =>
      cases heq
      exact hq e hfails
  | cons p' before =>
      cases heq
      exact h before p rest e rfl hfails

/-- A request that fails and would fail again has stored nothing. -/
theorem outcome_eq_of_fails_again (hfails : ((r.ask q).outcome s).1 = .error e)
    (hagain : ((r.ask q).outcome ((r.ask q).outcome s).2).1.isOk = false) :
    ((r.ask q).outcome s).2 = s := by
  have hans := answered_ask (r := r) q s
  rw [hfails] at hans
  rcases hans.retry with hsame | ⟨told, s', hretry, _⟩
  · exact hsame
  · rw [hretry.outcome_eq] at hagain
    cases hagain

end Resolver

/-! ## Between requests -/

theorem WalkState.pending_after (asked : List (Resolver × Request)) (s : WalkState) :
    (WalkState.after asked s).pending = s.pending := by
  induction asked generalizing s with
  | nil => rfl
  | cons call rest ih =>
      obtain ⟨r, q⟩ := call
      rw [WalkState.after, ih]
      exact (answered_ask q s).pending_eq

/-- **What is being resolved is restored.** It is the same before and after a walk for a schema, at
whatever depth and however the walk ends, and the same before and after requests. So a request that
is made after others, where nothing was being resolved at the outset, fails with a cycle only at a
chain of references that comes back, or at a schema that it is resolving itself and comes to again.
And where everything that is remembered is met at the outset, it fails after others only if it fails
alone, unless one of the others failed with a cycle and stored something; if all that failed stored
nothing, it fails alike when it is alone, or with a cycle. -/
theorem Resolver.pending_restored (r : Resolver) :
    (∀ path depth n name isNamed s,
      ((r.resolveWithin path depth n name isNamed).outcome s).2.pending = s.pending) ∧
    (∀ asked s, (WalkState.after asked s).pending = s.pending) ∧
    (∀ asked types q location,
      ((r.ask q).outcome (WalkState.after asked { types })).1
        = .error (.cyclicReference location) →
      r.enter q.visit = .error (.cyclicReference location) ∨
      ∃ path v stack u t, r.Begins q path v ∧
        r.Descends path v (WalkState.after asked { types }) stack u t ∧
        r.Closes path stack u t.types location) ∧
    (r.description.Tidy → ∀ qs q s, (∀ p ∈ qs, p.Proper r.description) →
      q.Proper r.description → r.Settled (Visit.Proper r.description) s →
      r.CyclesHarmless qs s → ∀ e, ((r.ask q).outcome (r.after qs s)).1 = .error e →
      ∃ e', ((r.ask q).outcome s).1 = .error e' ∧
        (r.Harmless qs s → e' = e ∨ ∃ location, e' = .cyclicReference location)) := by
  refine ⟨fun path depth n name isNamed s => ?_, WalkState.pending_after,
    fun asked types q location hfails => ?_,
    fun hd qs q s hqs hq hs hharmless e hfails => fails_alone hd hqs hq hs hharmless hfails⟩
  · exact (@walked_resolveVisit r path depth ⟨n, name, isNamed⟩ s).pending_eq
  · have hans := answered_ask (r := r) q (WalkState.after asked { types })
    rw [hfails] at hans
    have hpending : (WalkState.after asked { types }).pending = [] :=
      WalkState.pending_after asked { types }
    have hcloses := hans.closes
    -- So the schema that is come to again is one that the request itself entered.
    rw [hpending] at hcloses
    simpa only [List.append_nil] using hcloses

/-! ## Folders that are shared -/

/-- An array of the schemas of a component. -/
def arrayOf (name : String) : Schema :=
  .inline { type := some "array" } [] [] [] []
    (some (.reference ("#/components/schemas/" ++ name))) .none

/-- An object whose properties are components. -/
def recordOf (properties : List (String × String)) : Schema :=
  .inline {} [] [] []
    (properties.map fun (property, name) =>
      (property, .reference ("#/components/schemas/" ++ name)))
    none .none

theorem tidy_arrayOf (name : String) : (arrayOf name).Tidy := by
  refine .inline _ nofun nofun nofun List.nodup_nil nofun (fun s hs => ?_) nofun
  cases hs
  exact .reference _

theorem tidy_recordOf {properties : List (String × String)}
    (h : (properties.map Prod.fst).Nodup) : (recordOf properties).Tidy := by
  refine .inline _ nofun nofun nofun ?_ (fun entry hentry => ?_) nofun nofun
  · rw [List.map_map]
    exact h
  · obtain ⟨property, _, rfl⟩ := List.mem_map.mp hentry
    exact .reference _

/-- Folders have folders and an owner, persons have friends, and a share is of a folder with people.
A loop is an array of itself. -/
def sharesDescription : Description where
  dialect := .early
  version := "3.0.0"
  schemas := [("Folders", arrayOf "Folder"),
    ("Folder", recordOf [("folders", "Folders"), ("owner", "Person")]),
    ("People", arrayOf "Person"),
    ("Person", recordOf [("friends", "People")]),
    ("Share", recordOf [("folder", "Folder"), ("people", "People")]),
    ("Loop", arrayOf "Loop")]

theorem tidy_sharesDescription : sharesDescription.Tidy where
  nodup_schemas := by decide
  schemas entry hentry := by
    simp only [sharesDescription, List.mem_cons, List.not_mem_nil, or_false] at hentry
    rcases hentry with rfl | rfl | rfl | rfl | rfl | rfl
    · exact tidy_arrayOf _
    · exact tidy_recordOf (by decide)
    · exact tidy_arrayOf _
    · exact tidy_recordOf (by decide)
    · exact tidy_recordOf (by decide)
    · exact tidy_arrayOf _
  parameters := nofun
  requestBodies := nofun
  responses := nofun
  nodup_paths := List.nodup_nil
  paths := nofun

/-- A resolver for it. -/
def sharesResolver : Resolver where
  description := sharesDescription
  options := {}

/-- The request for one of its components. -/
def sharesRequest (name : String) (schema : Schema) : Request :=
  .component ⟨SchemaKey.component name, schema⟩ name

/-- The request for all folders. -/
def foldersRequest : Request := sharesRequest "Folders" (arrayOf "Folder")

/-- The request for a share. -/
def shareRequest : Request :=
  sharesRequest "Share" (recordOf [("folder", "Folder"), ("people", "People")])

/-- The request for a person. -/
def personRequest : Request := sharesRequest "Person" (recordOf [("friends", "People")])

/-- The request for a loop. -/
def loopRequest : Request := sharesRequest "Loop" (arrayOf "Loop")

theorem proper_sharesRequest {name : String} {schema : Schema}
    (h : (name, schema) ∈ sharesDescription.schemas) :
    (sharesRequest name schema).Proper sharesDescription :=
  List.mem_map_of_mem h

/-- A person is resolved, and a loop fails with a cycle and stores nothing. -/
theorem harmless_of_shares : sharesResolver.Harmless [personRequest, loopRequest] {} := by
  have hperson : ((sharesResolver.ask personRequest).outcome {}).1.isOk = true := by
    decide +kernel
  have hloop : ((sharesResolver.ask loopRequest).outcome
      (sharesResolver.after [personRequest, loopRequest] {})).1.isOk = false := by
    decide +kernel
  refine Resolver.harmless_cons (fun e hfails => ?_) (Resolver.harmless_cons (fun e hfails => ?_)
    Resolver.harmless_nil)
  · rw [hfails] at hperson
    cases hperson
  · exact Resolver.outcome_eq_of_fails_again hfails hloop

/-- All folders are asked for, which fails with a cycle and stores the slot of a folder. A share is
answered when it is alone, and fails with a cycle after that: of a person, who is not come to
through the folder any more. Nothing is being resolved in between. A loop that was asked for before
fails alone as well. -/
theorem pending_of_shares :
    ((sharesResolver.ask shareRequest).outcome {}).1.isOk = true ∧
    ((sharesResolver.ask shareRequest).outcome (sharesResolver.after [foldersRequest] {})).1
      = .error (.cyclicReference "#/components/schemas/People") ∧
    (sharesResolver.after [foldersRequest] {}).pending = [] ∧
    (∃ path v stack u t, sharesResolver.Begins shareRequest path v ∧
      sharesResolver.Descends path v (sharesResolver.after [foldersRequest] {}) stack u t ∧
      sharesResolver.Closes path stack u t.types "#/components/schemas/People") ∧
    ¬ sharesResolver.CyclesHarmless [foldersRequest] {} ∧
    ∃ location, ((sharesResolver.ask loopRequest).outcome {}).1
      = .error (.cyclicReference location) := by
  obtain ⟨_, hafter, hcloses, halone⟩ := sharesResolver.pending_restored
  have hok : ((sharesResolver.ask shareRequest).outcome {}).1.isOk = true := by decide +kernel
  have hfails : ((sharesResolver.ask shareRequest).outcome
      (sharesResolver.after [foldersRequest] {})).1
        = .error (.cyclicReference "#/components/schemas/People") :=
    failure?_eq_some_iff.mp (by decide +kernel)
  have hloop : ((sharesResolver.ask loopRequest).outcome
      (sharesResolver.after [personRequest, loopRequest] {})).1
        = .error (.cyclicReference "#/components/schemas/Loop") :=
    failure?_eq_some_iff.mp (by decide +kernel)
  have hsettled := Resolver.Settled.empty sharesResolver (Visit.Proper sharesDescription)
  refine ⟨hok, hfails, hafter [(sharesResolver, foldersRequest)] {}, ?_, fun hharmless => ?_, ?_⟩
  · rcases hcloses [(sharesResolver, foldersRequest)] {} shareRequest _ hfails with hstrayed | h
    · cases hstrayed
    · exact h
  · -- If the request for all folders had stored nothing, a share would fail alone.
    have hproper : ∀ p ∈ [foldersRequest], p.Proper sharesDescription := by
      intro p hp
      rw [List.mem_singleton.mp hp]
      exact proper_sharesRequest (by simp [sharesDescription])
    obtain ⟨e', he', _⟩ := halone tidy_sharesDescription [foldersRequest] shareRequest {} hproper
      (proper_sharesRequest (by simp [sharesDescription])) hsettled hharmless _ hfails
    rw [he'] at hok
    cases hok
  · have hproper : ∀ p ∈ [personRequest, loopRequest], p.Proper sharesDescription := by
      intro p hp
      rcases List.mem_cons.mp hp with rfl | hp
      · exact proper_sharesRequest (by simp [sharesDescription])
      · rw [List.mem_singleton.mp hp]
        exact proper_sharesRequest (by simp [sharesDescription])
    obtain ⟨e', he', halike⟩ := halone tidy_sharesDescription [personRequest, loopRequest]
      loopRequest {} hproper (proper_sharesRequest (by simp [sharesDescription])) hsettled
      harmless_of_shares.cyclesHarmless _ hloop
    rcases halike harmless_of_shares with rfl | ⟨location, rfl⟩
    · exact ⟨_, he'⟩
    · exact ⟨location, he'⟩

end ApiTypes

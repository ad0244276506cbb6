import DeclGraph.Proofs.Lockstep

/-!
# Scripts

A script is a list of calls that refers to a declaration only by the call that it
was the answer to.  In the root a script makes packages with names of its own and
nothing else.  So it does not see what is in the graph that it runs on.

Main results:

- Theorem `InStep.play`: a call keeps the two runs of a script in step.
- Theorem `InStep.playAll`: so do all its calls, by induction on them.
- Theorems `Script.exists_runOn` and `Script.exists_of_runOn`: a script that runs by
  itself runs on top of every graph that has none of its packages, and builds the same
  there; and a script that runs there runs by itself.
-/

namespace DeclGraph

open DeclGraph.Graph

/-! ## Calls -/

/-- What a call refers to. -/
inductive Handle
  /-- The root. -/
  | root
  /-- The declaration that an earlier call was answered with. -/
  | answer (call : Nat)
deriving DecidableEq

/-- A request that refers to declarations by handles. -/
inductive Call
  /-- The package of a name. -/
  | package (container : Handle) (name : Name)
  /-- The class of a name. -/
  | klass (container : Handle) (name : Name)
  /-- The object of a name. -/
  | object (container : Handle) (name : Name)
  /-- A new field. -/
  | field (container : Handle) (name : Name)
  /-- A new method. -/
  | method (container : Handle) (name : Name)
  /-- A new comment. -/
  | comment (container : Handle) (text : String)
  /-- An anonymous name. -/
  | issueName (container : Handle)
  /-- Take out a method that is there twice. -/
  | dropDuplicate (container id : Handle)
  /-- Change a class in place. -/
  | editClass (id : Handle) (change : ClassDecl → ClassDecl)
  /-- Change an object in place. -/
  | editObject (id : Handle) (change : ObjectDecl → ObjectDecl)
  /-- Change a field in place. -/
  | editField (id : Handle) (change : FieldDecl → FieldDecl)
  /-- Change a method in place. -/
  | editMethod (id : Handle) (change : MethodDecl → MethodDecl)

/-- The declaration that is the answer. -/
def Answer.id? : Answer → Option DeclId
  | id declared => some declared
  | _ => none

/-- What a handle stands for after the answers so far. -/
def Handle.id? (answers : List Answer) : Handle → Option DeclId
  | root => some Graph.root
  | answer call => answers[call]?.bind Answer.id?

namespace Call

/-- The request that a call stands for after the answers so far. -/
def request? (answers : List Answer) : Call → Option Request
  | package container name => (container.id? answers).map (Request.package · name)
  | klass container name => (container.id? answers).map (Request.klass · name)
  | object container name => (container.id? answers).map (Request.object · name)
  | field container name => (container.id? answers).map (Request.field · name)
  | method container name => (container.id? answers).map (Request.method · name)
  | comment container text => (container.id? answers).map (Request.comment · text)
  | issueName container => (container.id? answers).map Request.issueName
  | dropDuplicate container id =>
      (container.id? answers).bind fun c => (id.id? answers).map (Request.dropDuplicate c)
  | editClass id change => (id.id? answers).map (Request.editClass · change)
  | editObject id change => (id.id? answers).map (Request.editObject · change)
  | editField id change => (id.id? answers).map (Request.editField · change)
  | editMethod id change => (id.id? answers).map (Request.editMethod · change)

/-- Does the call ask of the root for nothing but a package with one of the names, and do its edits
leave names, members and companions alone? -/
def Below (names : Set Name) : Call → Prop
  | package container name => container = .root → name ∈ names
  | klass container _ | object container _ | field container _ | method container _
  | comment container _ | issueName container | dropDuplicate container _ => container ≠ .root
  | editClass id change => id ≠ .root ∧ ClassDecl.EditedInPlace change
  | editObject id change => id ≠ .root ∧ ObjectDecl.EditedInPlace change
  | editField id _ | editMethod id _ => id ≠ .root

/-- Make one call. -/
def play (state : List Answer × Graph) (call : Call) : Option (List Answer × Graph) :=
  (call.request? state.1).bind fun request =>
    match request.perform state.2 with
    | .ok answer g => if g.size < UInt32.size then some (state.1 ++ [answer], g) else none
    | .error _ _ => none

end Call

/-- A list of calls that makes packages in the root under names of its own, and whose other calls
are all on what is below them. -/
structure Script where
  /-- The names of the packages. -/
  names : Set Name
  /-- The calls, in their order. -/
  calls : List Call
  below : ∀ call ∈ calls, call.Below names

/-- Run a script on a graph. -/
def Script.runOn (script : Script) (g : Graph) : Option Graph :=
  (script.calls.foldlM Call.play ([], g)).map Prod.snd

/-! ## Slots -/

/-- What is made of the answer fills no slot. -/
theorem Build.Fills.map {α β : Type} {n : Nat} {build : Build α} (h : Build.Fills n build)
    (f : α → β) : Build.Fills n (f <$> build) := by
  rw [← bind_pure_comp]
  exact Build.fills_bind h fun a => Build.fills_pure (f a)

/-- A request fills one slot at most. -/
theorem Request.fills (request : Request) : Build.Fills 1 request.perform := by
  have hedit : ∀ (id : DeclId) (change : Decl → Decl),
      Build.Fills 1 ((fun _ => Answer.edited) <$> Build.update (Graph.modify · id change)) := by
    intro id change
    refine Build.Fills.map (fun g => ?_) _
    simp [Build.final, Build.update]
  cases request with
  | package container name => exact (fills_ensurePackage container name).map _
  | klass container name => exact (fills_ensureClass container name).map _
  | object container name => exact (fills_ensureObject container name).map _
  | field container name => exact (fills_addMember container _).map _
  | method container name => exact (fills_addMember container _).map _
  | comment container text => exact (fills_addMember container _).map _
  | issueName container => exact (Build.fills_checked fun _ _ => by simp).map _
  | dropDuplicate container id => exact (Build.fills_checked fun _ _ => by split <;> simp).map _
  | editClass id change => exact hedit id _
  | editObject id change => exact hedit id _
  | editField id change => exact hedit id _
  | editMethod id change => exact hedit id _

/-- A call that was made was granted. -/
theorem Call.exists_of_play {state state' : List Answer × Graph} {call : Call}
    (h : call.play state = some state') : ∃ request answer,
      call.request? state.1 = some request ∧ request.perform state.2 = .ok answer state'.2 ∧
        state'.1 = state.1 ++ [answer] ∧ state'.2.size < UInt32.size := by
  obtain ⟨request, hrequest, hplay⟩ := Option.bind_eq_some_iff.mp h
  cases hrun : request.perform state.2 with
  | error violation g => simp [hrun] at hplay
  | ok answer g =>
      simp only [hrun] at hplay
      split at hplay
      · next hsize =>
          obtain rfl := Option.some.inj hplay
          exact ⟨request, answer, hrequest, hrun, rfl, hsize⟩
      · contradiction

/-- A granted call is made. -/
theorem Call.play_of_ok {answers : List Answer} {g g' : Graph} {call : Call} {request : Request}
    {answer : Answer} (hrequest : call.request? answers = some request)
    (hrun : request.perform g = .ok answer g') (hsize : g'.size < UInt32.size) :
    call.play (answers, g) = some (answers ++ [answer], g') := by
  simp [Call.play, hrequest, hrun, hsize]

/-- Calls give up no slot. -/
theorem size_le_of_playAll {calls : List Call} {state state' : List Answer × Graph}
    (h : calls.foldlM Call.play state = some state') : state.2.size ≤ state'.2.size := by
  induction calls generalizing state with
  | nil =>
      obtain rfl := Option.some.inj h
      exact Nat.le_refl _
  | cons call calls ih =>
      rw [List.foldlM_cons] at h
      obtain ⟨next, hnext, hrest⟩ := Option.bind_eq_some_iff.mp h
      obtain ⟨request, answer, -, hrun, -⟩ := Call.exists_of_play hnext
      have hgrown := request.fills.growing state.2
      rw [Build.final_of_ok hrun] at hgrown
      exact Nat.le_trans hgrown (ih hrest)

/-! ## Handles -/

/-- With other ids in the answers, each of them is another id. -/
theorem Answer.id?_getElem?_renumber (f : DeclId → DeclId) (answers : List Answer) (call : Nat) :
    (answers.map (Answer.renumber f))[call]?.bind Answer.id? =
      (answers[call]?.bind Answer.id?).map f := by
  rw [List.getElem?_map, Option.bind_map, Option.map_bind]
  congr 1
  funext answer
  cases answer <;> rfl

section Handles

variable {f : DeclId → DeclId} (hf : f Graph.root = Graph.root) (answers : List Answer)

include hf

/-- With other ids in the answers a handle stands for another id. -/
theorem Handle.id?_renumber (handle : Handle) :
    handle.id? (answers.map (Answer.renumber f)) = (handle.id? answers).map f := by
  cases handle with
  | root => rw [Handle.id?, Handle.id?, Option.map_some, hf]
  | answer call => exact Answer.id?_getElem?_renumber f answers call

/-- With other ids in the answers a call stands for the same request about other ids. -/
theorem Call.request?_renumber (call : Call) :
    call.request? (answers.map (Answer.renumber f)) =
      (call.request? answers).map (Request.renumber f) := by
  cases call with
  | dropDuplicate container id =>
      simp only [Call.request?, Handle.id?_renumber hf]
      cases container.id? answers <;> cases id.id? answers <;> rfl
  | _ =>
      simp only [Call.request?, Handle.id?_renumber hf, Option.map_map]
      rfl

end Handles

/-- The ids in the answers are those of declarations below the root. -/
def Known (state : List Answer × Graph) : Prop :=
  ∀ id, .id id ∈ state.1 → id.index < state.2.size ∧ id ≠ root

namespace Known

variable {state : List Answer × Graph} (hknown : Known state) (hg : Coherent state.2)

include hknown hg

theorem index_lt_of_id? {handle : Handle} {id : DeclId} (h : handle.id? state.1 = some id) :
    id.index < state.2.size ∧ (handle ≠ .root → id ≠ root) := by
  cases handle with
  | root =>
      obtain rfl := Option.some.inj h
      exact ⟨index_lt_of_key? hg.key?_root, fun hne => absurd rfl hne⟩
  | answer call =>
      obtain ⟨answer, hanswer, hid⟩ := Option.bind_eq_some_iff.mp h
      cases answer <;> simp only [Answer.id?, Option.some.injEq, reduceCtorEq] at hid
      subst hid
      obtain ⟨hlt, hne⟩ := hknown _ (List.mem_of_getElem? hanswer)
      exact ⟨hlt, fun _ => hne⟩

/-- What stays below the packages of a script as a call stays below them as a request. -/
theorem below {names : Set Name} {call : Call} (hcall : call.Below names) {request : Request}
    (h : call.request? state.1 = some request) : request.Below names state.2 := by
  have hplaced : ∀ {handle : Handle} {id : DeclId}, handle ≠ .root → handle.id? state.1 = some id →
      id.index < state.2.size ∧ id ≠ root := by
    intro handle id hne hid
    obtain ⟨hlt, hbelow⟩ := hknown.index_lt_of_id? hg hid
    exact ⟨hlt, hbelow hne⟩
  cases call with
  | package container name =>
      obtain ⟨id, hid, rfl⟩ := Option.map_eq_some_iff.mp h
      obtain ⟨hlt, hbelow⟩ := hknown.index_lt_of_id? hg hid
      refine ⟨hlt, fun hroot => hcall ?_⟩
      by_contra hne
      exact hbelow hne hroot
  | dropDuplicate container id =>
      obtain ⟨c, hc, hrest⟩ := Option.bind_eq_some_iff.mp h
      obtain ⟨member, hmember, rfl⟩ := Option.map_eq_some_iff.mp hrest
      exact ⟨hplaced hcall hc, (hknown.index_lt_of_id? hg hmember).1⟩
  | editClass id change =>
      obtain ⟨d, hd, rfl⟩ := Option.map_eq_some_iff.mp h
      exact ⟨hplaced hcall.1 hd, hcall.2⟩
  | editObject id change =>
      obtain ⟨d, hd, rfl⟩ := Option.map_eq_some_iff.mp h
      exact ⟨hplaced hcall.1 hd, hcall.2⟩
  | _ =>
      obtain ⟨id, hid, rfl⟩ := Option.map_eq_some_iff.mp h
      exact hplaced hcall hid

end Known

/-! ## Both runs of a script -/

/-- A script that runs by itself and on top of a base has been answered alike, and has built the
same in both places. -/
structure InStep (names : Set Name) (base : Graph) (own whole : List Answer × Graph) : Prop where
  ownBuilt : ∃ record, Built anyName record own.2
  wholeBuilt : ∃ record, Built anyName record whole.2
  alongside : Alongside base own.2 whole.2
  packaged : Packaged names own.2
  known : Known own
  answers : whole.1 = own.1.map (Answer.renumber (onTop base))

namespace InStep

variable {names : Set Name} {base : Graph} (hbase : Coherent base)
  (hfree : ∀ name ∈ names, base.lookup root (.package, name) = none)

include hbase hfree

/-- A call keeps the two runs of a script in step. -/
theorem play {own whole own' : List Answer × Graph} (h : InStep names base own whole) {call : Call}
    (hcall : call.Below names) (hplay : call.play own = some own')
    (hfits : own'.2.size + (base.size - 1) < UInt32.size) :
    ∃ whole', call.play whole = some whole' ∧ InStep names base own' whole' := by
  obtain ⟨ownRecord, hown⟩ := h.ownBuilt
  obtain ⟨wholeRecord, hwhole⟩ := h.wholeBuilt
  obtain ⟨request, answer, hrequest, hrun, hanswers, hsize⟩ := Call.exists_of_play hplay
  have hbelow := h.known.below hown.coherent hcall hrequest
  have hmatched := h.alongside.perform h.packaged hown.coherent hwhole.coherent hbase hfree hbelow
    hrun
  obtain ⟨g', hrunWhole, halong⟩ := hmatched.whole
  have hsizeWhole : g'.size < UInt32.size := by
    rw [halong.size]
    exact hfits
  have hrequestWhole : call.request? whole.1 = some (request.renumber (onTop base)) := by
    rw [h.answers, Call.request?_renumber (onTop_root base), hrequest, Option.map_some]
  have hadmitted := hbelow.admitted
  refine ⟨_, Call.play_of_ok hrequestWhole hrunWhole hsizeWhole, ?_⟩
  exact {
    ownBuilt := ⟨_, hown.request (hadmitted ownRecord) hrun hsize⟩
    wholeBuilt := ⟨_, hwhole.request (Request.admitted_renumber (hadmitted ownRecord) _) hrunWhole
      hsizeWhole⟩
    alongside := halong
    packaged := hmatched.packaged
    known := by
      intro id hid
      rw [hanswers, List.mem_append, List.mem_singleton] at hid
      obtain hold | hnew := hid
      · have hgrown := request.fills.growing own.2
        rw [Build.final_of_ok hrun] at hgrown
        obtain ⟨hlt, hne⟩ := h.known id hold
        exact ⟨Nat.lt_of_lt_of_le hlt hgrown, hne⟩
      · exact hmatched.known id hnew.symm
    answers := by rw [h.answers, hanswers, List.map_append, List.map_singleton] }

/-- Calls one after the other keep the two runs of a script in step. -/
theorem playAll {calls : List Call} (hcalls : ∀ call ∈ calls, call.Below names)
    {own whole own' : List Answer × Graph} (h : InStep names base own whole)
    (hplay : calls.foldlM Call.play own = some own')
    (hfits : own'.2.size + (base.size - 1) < UInt32.size) :
    ∃ whole', calls.foldlM Call.play whole = some whole' ∧ InStep names base own' whole' := by
  induction calls generalizing own whole with
  | nil =>
      obtain rfl := Option.some.inj hplay
      exact ⟨whole, rfl, h⟩
  | cons call calls ih =>
      obtain ⟨hcall, hcalls⟩ := List.forall_mem_cons.mp hcalls
      rw [List.foldlM_cons] at hplay
      obtain ⟨next, hnext, hrest⟩ := Option.bind_eq_some_iff.mp hplay
      have hsize := size_le_of_playAll hrest
      obtain ⟨wholeNext, hwholeNext, hstep⟩ := h.play hbase hfree hcall hnext (by omega)
      obtain ⟨whole', hwhole', hdone⟩ := ih hcalls hstep hrest
      refine ⟨whole', ?_, hdone⟩
      rw [List.foldlM_cons, hwholeNext]
      exact hwhole'

/-- A call that is made on top of the base is made without it. -/
theorem exists_play {own whole whole' : List Answer × Graph} (h : InStep names base own whole)
    {call : Call} (hcall : call.Below names) (hplay : call.play whole = some whole') :
    ∃ own', call.play own = some own' ∧ InStep names base own' whole' := by
  obtain ⟨ownRecord, hown⟩ := h.ownBuilt
  obtain ⟨wholeRecord, hwhole⟩ := h.wholeBuilt
  obtain ⟨_, _, hmapped, hrunWhole, -, hsize⟩ := Call.exists_of_play hplay
  rw [h.answers, Call.request?_renumber (onTop_root base)] at hmapped
  obtain ⟨request, hrequest, rfl⟩ := Option.map_eq_some_iff.mp hmapped
  have hbelow := h.known.below hown.coherent hcall hrequest
  obtain ⟨answer, g', hrun⟩ :=
    h.alongside.exists_perform hown.coherent hwhole.coherent hbelow hrunWhole
  have hmatched := h.alongside.perform h.packaged hown.coherent hwhole.coherent hbase hfree hbelow
    hrun
  obtain ⟨found, hfound, halong⟩ := hmatched.whole
  rw [hrunWhole] at hfound
  obtain ⟨-, rfl⟩ := EStateM.Result.ok.inj hfound
  rw [halong.size] at hsize
  have hplayOwn := Call.play_of_ok hrequest hrun (by omega)
  obtain ⟨whole'', hplay', hstep⟩ := h.play hbase hfree hcall hplayOwn hsize
  rw [hplay] at hplay'
  obtain rfl := Option.some.inj hplay'
  exact ⟨_, hplayOwn, hstep⟩

/-- Calls that are made on top of the base are made without it. -/
theorem exists_playAll {calls : List Call} (hcalls : ∀ call ∈ calls, call.Below names)
    {own whole whole' : List Answer × Graph} (h : InStep names base own whole)
    (hplay : calls.foldlM Call.play whole = some whole') :
    ∃ own', calls.foldlM Call.play own = some own' ∧ InStep names base own' whole' := by
  induction calls generalizing own whole with
  | nil =>
      obtain rfl := Option.some.inj hplay
      exact ⟨own, rfl, h⟩
  | cons call calls ih =>
      obtain ⟨hcall, hcalls⟩ := List.forall_mem_cons.mp hcalls
      rw [List.foldlM_cons] at hplay
      obtain ⟨next, hnext, hrest⟩ := Option.bind_eq_some_iff.mp hplay
      obtain ⟨ownNext, hownNext, hstep⟩ := h.exists_play hbase hfree hcall hnext
      obtain ⟨own', hown', hdone⟩ := ih hcalls hstep hrest
      refine ⟨own', ?_, hdone⟩
      rw [List.foldlM_cons, hownNext]
      exact hown'

end InStep

/-- A script that was not begun has no answers. -/
theorem InStep.start {record : Record} {base : Graph} (hbase : Built anyName record base)
    (names : Set Name) : InStep names base ([], Graph.empty) ([], base) where
  ownBuilt := ⟨_, .new⟩
  wholeBuilt := ⟨record, hbase⟩
  alongside := Alongside.start hbase.coherent
  packaged := Packaged.empty names
  known := by
    intro id hid
    contradiction
  answers := rfl

/-- A script gives up no slot. -/
theorem Script.size_le_of_runOn {script : Script} {g g' : Graph} (h : script.runOn g = some g') :
    g.size ≤ g'.size := by
  obtain ⟨state, hplay, rfl⟩ := Option.map_eq_some_iff.mp h
  exact size_le_of_playAll hplay

/-- A script that runs by itself runs on top of every graph that has none of its packages, and
builds the same there. -/
theorem Script.exists_runOn {record : Record} {script : Script} {base part : Graph}
    (hbase : Built anyName record base)
    (hfree : ∀ name ∈ script.names, base.lookup root (.package, name) = none)
    (hrun : script.runOn Graph.empty = some part)
    (hfits : part.size + (base.size - 1) < UInt32.size) :
    ∃ whole, script.runOn base = some whole ∧ (∃ record, Built anyName record whole) ∧
      (∃ record, Built anyName record part) ∧ Alongside base part whole ∧
      Packaged script.names part := by
  obtain ⟨own, hown, rfl⟩ := Option.map_eq_some_iff.mp hrun
  obtain ⟨whole, hwhole, hdone⟩ :=
    (InStep.start hbase script.names).playAll hbase.coherent hfree script.below hown hfits
  refine ⟨whole.2, ?_, hdone.wholeBuilt, hdone.ownBuilt, hdone.alongside, hdone.packaged⟩
  rw [Script.runOn, hwhole, Option.map_some]

/-- A script that runs on top of a graph that has none of its packages runs by itself. -/
theorem Script.exists_of_runOn {record : Record} {script : Script} {base whole : Graph}
    (hbase : Built anyName record base)
    (hfree : ∀ name ∈ script.names, base.lookup root (.package, name) = none)
    (hrun : script.runOn base = some whole) :
    ∃ part, script.runOn Graph.empty = some part ∧
      part.size + (base.size - 1) < UInt32.size := by
  obtain ⟨state, hstate, rfl⟩ := Option.map_eq_some_iff.mp hrun
  obtain ⟨own, hown, hdone⟩ :=
    (InStep.start hbase script.names).exists_playAll hbase.coherent hfree script.below hstate
  obtain ⟨_, hwhole⟩ := hdone.wholeBuilt
  refine ⟨own.2, ?_, ?_⟩
  · rw [Script.runOn, hown, Option.map_some]
  · rw [← hdone.alongside.size]
    exact hwhole.coherent.size_lt

end DeclGraph

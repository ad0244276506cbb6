import DeclGraph.Proofs.Joining

/-!
# Graphs that are built by requests

A graph is built from the root alone by requests, by edits in place that leave
every container where it is, and by merging in other graphs that were built in
the same way.  Beside the graph a record is kept of the anonymous names that were
issued and of the methods that were taken out.

A naming tells under which names classes and objects may be made.  Under the
naming `issuedName` a class or object may have an anonymous name only if its
container has issued that name before; under the naming `anyName` it may have any.

Main results:

- Theorems `Request.perform_wanted_iff` and `Request.perform_added_iff`: when a request for a
  container or for a new member is granted, and what it does then.
- Theorem `Request.outcome`: every granted request has one of five outcomes.
- Theorem `Built.coherent`: every graph that is built is coherent.
- Theorem `built_played`: playing requests builds a graph.
-/

namespace DeclGraph

open DeclGraph.Graph

/-! ## Requests -/

/-- What can be asked of a graph while it is built. -/
inductive Request
  /-- The package of a name. -/
  | package (container : DeclId) (name : Name)
  /-- The class of a name. -/
  | klass (container : DeclId) (name : Name)
  /-- The object of a name. -/
  | object (container : DeclId) (name : Name)
  /-- A new field. -/
  | field (container : DeclId) (name : Name)
  /-- A new method. -/
  | method (container : DeclId) (name : Name)
  /-- A new comment. -/
  | comment (container : DeclId) (text : String)
  /-- An anonymous name. -/
  | issueName (container : DeclId)
  /-- Take out a method that is there twice. -/
  | dropDuplicate (container id : DeclId)
  /-- Change a class in place. -/
  | editClass (id : DeclId) (change : ClassDecl → ClassDecl)
  /-- Change an object in place. -/
  | editObject (id : DeclId) (change : ObjectDecl → ObjectDecl)
  /-- Change a field in place. -/
  | editField (id : DeclId) (change : FieldDecl → FieldDecl)
  /-- Change a method in place. -/
  | editMethod (id : DeclId) (change : MethodDecl → MethodDecl)

/-- What a request is answered with. -/
inductive Answer
  /-- A declaration. -/
  | id (id : DeclId)
  /-- An issued name. -/
  | name (name : Name)
  /-- Whether a method was taken out. -/
  | dropped (dropped : Bool)
  /-- Nothing, after an edit. -/
  | edited

/-- The computation that a request stands for. -/
def Request.perform : Request → Build Answer
  | package container name => .id <$> ensurePackage container name
  | klass container name => .id <$> ensureClass container name
  | object container name => .id <$> ensureObject container name
  | field container name => .id <$> addField container name
  | method container name => .id <$> addMethod container name
  | comment container text => .id <$> addComment container text
  | issueName container => .name <$> Graph.issueName container
  | dropDuplicate container id => .dropped <$> Graph.dropDuplicate container id
  | editClass id change => (fun _ => .edited) <$> Build.update (modifyClass · id change)
  | editObject id change => (fun _ => .edited) <$> Build.update (modifyObject · id change)
  | editField id change => (fun _ => .edited) <$> Build.update (modifyField · id change)
  | editMethod id change => (fun _ => .edited) <$> Build.update (modifyMethod · id change)

/-! ## Records and namings -/

/-- What is remembered of the requests to a graph. -/
structure Record where
  /-- The anonymous names that were issued, each with the container that issued it. -/
  issued : List (DeclId × Name) := []
  /-- The methods that were taken out. -/
  removed : List DeclId := []

/-- The record after a request was granted. -/
def Record.after (record : Record) : Request → Answer → Record
  | .issueName container, .name name => { record with issued := (container, name) :: record.issued }
  | .dropDuplicate _ id, .dropped true => { record with removed := id :: record.removed }
  | _, _ => record

/-- Which names classes and objects may be given in a container. -/
abbrev Naming := Record → DeclId → Name → Prop

/-- A class or object may have an anonymous name only if its container issued it. -/
def issuedName : Naming := fun record container name =>
  name.anonymousIndex?.isSome → (container, name) ∈ record.issued

/-- Classes and objects may have any name. -/
def anyName : Naming := fun _ _ _ => True

/-- May this be asked of the graph? Classes and objects are made under names that the naming
admits, and an edit leaves every container's name, members and companion alone. -/
def Request.Admitted (naming : Naming) (record : Record) (g : Graph) : Request → Prop
  | klass container name =>
      g.lookup container (.klass, name) = none → naming record container name
  | object container name =>
      g.lookup container (.object, name) = none → naming record container name
  | editClass _ change => ∀ k, (change k).name = k.name ∧ (change k).scope = k.scope ∧
      (change k).companion = k.companion
  | editObject _ change => ∀ o, (change o).name = o.name ∧ (change o).scope = o.scope ∧
      (change o).companion = o.companion
  | _ => True

/-- Graphs that are built by requests and merges, with what is remembered of the requests. -/
inductive Built (naming : Naming) : Record → Graph → Prop
  | new : Built naming {} Graph.empty
  | request {record : Record} {g g' : Graph} {request : Request} {answer : Answer}
      (hbuilt : Built naming record g) (hadmitted : request.Admitted naming record g)
      (hrun : request.perform g = .ok answer g') (hsize : g'.size < UInt32.size) :
      Built naming (record.after request answer) g'
  | merge {record otherRecord : Record} {g other g' : Graph} (hbuilt : Built naming record g)
      (hother : Built naming otherRecord other) (hrun : Graph.merge other g = .ok () g')
      (hsize : g'.size < UInt32.size) : Built naming record g'

/-! ## What requests do -/

namespace Build

variable {α β : Type} {build : Build α} {g g' : Graph}

/-- What is made of an answer, a computation leaves the same graph. -/
theorem exists_of_map_eq_ok {f : α → β} {b : β} (h : (f <$> build) g = .ok b g') :
    ∃ a, build g = .ok a g' ∧ f a = b := by
  change EStateM.map f build g = _ at h
  unfold EStateM.map at h
  split at h
  · next a found hrun =>
      injection h with hb hg
      exact ⟨a, hg ▸ hrun, hb⟩
  · contradiction

/-- What is made of an answer is made after the same computation. -/
theorem map_of_ok {a : α} (h : build g = .ok a g') (f : α → β) :
    (f <$> build) g = .ok (f a) g' := by
  change EStateM.map f build g = _
  simp [EStateM.map, h]

/-- Nothing is made of an answer that a computation did not give. -/
theorem map_of_error {violation : Violation} (h : build g = .error violation g') (f : α → β) :
    (f <$> build) g = .error violation g' := by
  change EStateM.map f build g = _
  simp [EStateM.map, h]

/-- What is made of an answer depends only on how the computation ended. -/
theorem map_congr {build' : Build α} (h : build g = build' g') (f : α → β) :
    (f <$> build) g = (f <$> build') g' := by
  change EStateM.map f build g = EStateM.map f build' g'
  simp [EStateM.map, h]

/-- A computation that is granted under a condition is answered accordingly. -/
theorem map_eq_ok_iff {granted : Prop} {a : α} {made : Graph}
    (hgranted : ∀ {a g'}, build g = .ok a g' → granted) (hrun : granted → build g = .ok a made)
    {f : α → β} {b : β} : (f <$> build) g = .ok b g' ↔ granted ∧ b = f a ∧ g' = made := by
  constructor
  · intro h
    rcases exists_of_map_eq_ok h with ⟨found, hasked, rfl⟩
    have hcheck := hgranted hasked
    rw [hrun hcheck] at hasked
    injection hasked with hfound hmade
    exact ⟨hcheck, by rw [hfound], hmade.symm⟩
  · rintro ⟨hcheck, rfl, rfl⟩
    exact map_of_ok (hrun hcheck) f

end Build

namespace Request

/-- The container that a request wants to be there, with its key. -/
def wanted? : Request → Option (DeclId × Key)
  | package container name => some (container, .package, name)
  | klass container name => some (container, .klass, name)
  | object container name => some (container, .object, name)
  | _ => none

/-- The member that a request adds to a container. -/
def added? : Request → Option (DeclId × Decl)
  | field container name => some (container, .field { name })
  | method container name => some (container, .method { name })
  | comment container text => some (container, .comment text)
  | _ => none

variable {request : Request} {g g' : Graph} {c : DeclId} {answer : Answer}

theorem isContainer_of_wanted? {key : Key} (h : request.wanted? = some (c, key)) :
    key.1.isContainer := by
  cases request <;> simp only [wanted?, reduceCtorEq, Option.some.injEq, Prod.mk.injEq] at h <;>
    rw [← h.2] <;> rfl

theorem key?_of_added? {decl : Decl} (h : request.added? = some (c, decl)) : decl.key? = none := by
  cases request <;> simp only [added?, reduceCtorEq, Option.some.injEq, Prod.mk.injEq] at h <;>
    rw [← h.2] <;> rfl

/-- A package is found or made in a package, a class or an object in every container. -/
theorem perform_wanted_iff {key : Key} (h : request.wanted? = some (c, key)) :
    request.perform g = .ok answer g' ↔
      ((g.key? c).isSome ∧ (key.1 = .package → g.kind? c = some .package)) ∧
        answer = .id (g.ensured c key).1 ∧ g' = (g.ensured c key).2 := by
  have hscoped : ∀ {α : Type} {act : Scope → Graph → α × Graph} {a : α} {g' : Graph},
      Build.checked (Graph.scope · c) act g = .ok a g' → (g.key? c).isSome := by
    intro α act a g' hrun
    rcases Build.exists_of_checked_eq_ok hrun with ⟨scope, hscope, -⟩
    exact isSome_key?_of_scope hscope
  cases request with
  | package container name =>
      obtain ⟨rfl, rfl⟩ := Prod.mk.inj (Option.some.inj h)
      refine Build.map_eq_ok_iff (fun hrun => ?_)
        fun hgranted => ensurePackage_eq (hgranted.2 rfl) name
      rcases Build.exists_of_checked_eq_ok hrun with ⟨scope, hscope, -⟩
      have hkind := kind?_of_packageScope hscope
      exact ⟨isSome_key?_of_package hkind, fun _ => hkind⟩
  | klass container name =>
      obtain ⟨rfl, rfl⟩ := Prod.mk.inj (Option.some.inj h)
      exact Build.map_eq_ok_iff (fun hrun => ⟨hscoped hrun, by simp⟩)
        fun hgranted => ensureClass_eq hgranted.1 name
  | object container name =>
      obtain ⟨rfl, rfl⟩ := Prod.mk.inj (Option.some.inj h)
      exact Build.map_eq_ok_iff (fun hrun => ⟨hscoped hrun, by simp⟩)
        fun hgranted => ensureObject_eq hgranted.1 name
  | _ => contradiction

/-- A field, a method or a comment is added to every container. -/
theorem perform_added_iff {decl : Decl} (h : request.added? = some (c, decl)) :
    request.perform g = .ok answer g' ↔
      (g.key? c).isSome ∧ answer = .id g.nextId ∧ g' = g.enlist c decl := by
  have hleaf := key?_of_added? h
  have hadd : (Answer.id <$> addMember c decl) g = .ok answer g' ↔
      (g.key? c).isSome ∧ answer = .id g.nextId ∧ g' = g.enlist c decl := by
    refine Build.map_eq_ok_iff (fun hrun => ?_) fun hcontainer => addMember_eq hcontainer hleaf
    rcases Build.exists_of_checked_eq_ok hrun with ⟨scope, hscope, -⟩
    exact isSome_key?_of_scope hscope
  cases request <;> simp only [added?, reduceCtorEq, Option.some.injEq, Prod.mk.injEq] at h <;>
    rcases h with ⟨rfl, rfl⟩ <;> exact hadd

end Request

/-! ## Outcomes -/

/-- What a granted request has done to the record and the graph. -/
inductive Outcome (naming : Naming) (record : Record) (g : Graph) : Record → Graph → Prop
  /-- What was asked for was there. -/
  | found : Outcome naming record g record g
  /-- A member was enlisted. -/
  | enlisted {container : DeclId} {decl : Decl} (hfits : Fits g container decl)
      (hissued : decl.issued = 0)
      (hnamed : ∀ kind name, decl.key? = some (kind, name) → kind ≠ .package →
        naming record container name)
      (hmember : decl.kind ≠ .typeParam ∧ decl.kind ≠ .param) :
      Outcome naming record g record (g.enlist container decl)
  /-- A declaration was edited. -/
  | edited {id : DeclId} {change : Decl → Decl} (hplace : ∀ decl, SamePlace (change decl) decl)
      (hissued : ∀ decl, (change decl).issued = decl.issued) :
      Outcome naming record g record (g.modify id change)
  /-- A name was issued. -/
  | issued {container : DeclId} (hcontainer : (g.key? container).isSome)
      (hleft : (g.issued container).toNat + 1 < UInt32.size) :
      Outcome naming record g
        { record with
          issued := (container, Name.anonymous (g.issued container + 1)) :: record.issued }
        (g.modify container (Decl.mapScope Scope.issue))
  /-- A method was taken out. -/
  | removed {container id : DeclId} (howner : g.owner? id = some container)
      (hkind : g.kind? id = some .method) :
      Outcome naming record g { record with removed := id :: record.removed }
        (g.detach container id)

/-- The outcome of asking for a container. -/
private theorem outcome_ensured {naming : Naming} {record : Record} {g : Graph}
    {container : DeclId} {key : Key} (hcontainer : (g.key? container).isSome)
    (hkey : key.1.isContainer) (hpackage : key.1 = .package → g.kind? container = some .package)
    (hnamed : g.lookup container key = none → key.1 ≠ .package → naming record container key.2) :
    Outcome naming record g record (g.ensured container key).2 := by
  unfold ensured
  cases hlookup : g.lookup container key with
  | some id => exact .found
  | none =>
      apply Outcome.enlisted (fits_newcomer hcontainer hkey hlookup hpackage)
      · rcases key with ⟨kind, name⟩
        cases kind <;> rfl
      · intro kind name hdecl hkind
        rw [newcomer, key?_bare hkey] at hdecl
        obtain rfl := Option.some.inj hdecl
        exact hnamed hlookup hkind
      · rcases key with ⟨kind, name⟩
        cases kind <;> first | contradiction | simp [newcomer, bare, Decl.kind]

/-- The outcome of adding a member. -/
private theorem outcome_enlist {naming : Naming} {record : Record} {g : Graph} {container : DeclId}
    {decl : Decl} (hcontainer : (g.key? container).isSome) (hleaf : decl.key? = none)
    (hmember : decl.kind ≠ .typeParam ∧ decl.kind ≠ .param) :
    Outcome naming record g record (g.enlist container decl) := by
  apply Outcome.enlisted (fits_leaf hcontainer hleaf)
  · cases decl <;> first | rfl | simp [Decl.key?] at hleaf
  · intro kind name hkey
    rw [hleaf] at hkey
    contradiction
  · exact hmember

/-- A class that is edited in place stays where it is. -/
theorem samePlace_mapClass {change : ClassDecl → ClassDecl}
    (h : ∀ k, (change k).name = k.name ∧ (change k).scope = k.scope ∧
      (change k).companion = k.companion) (decl : Decl) :
    SamePlace (decl.mapClass change) decl ∧ (decl.mapClass change).issued = decl.issued := by
  have hname := fun k => (h k).1
  have hscope := fun k => (h k).2.1
  have hcompanion := fun k => (h k).2.2
  constructor
  · constructor <;> cases decl <;> first | rfl |
      simp [Decl.mapClass, Decl.key?, Decl.memberIds, Decl.index, Decl.scope?, Decl.companion?,
        hname, hscope, hcompanion]
  · cases decl <;> simp [Decl.mapClass, Decl.issued, Decl.scope?, hscope]

/-- An object that is edited in place stays where it is. -/
theorem samePlace_mapObject {change : ObjectDecl → ObjectDecl}
    (h : ∀ o, (change o).name = o.name ∧ (change o).scope = o.scope ∧
      (change o).companion = o.companion) (decl : Decl) :
    SamePlace (decl.mapObject change) decl ∧ (decl.mapObject change).issued = decl.issued := by
  have hname := fun o => (h o).1
  have hscope := fun o => (h o).2.1
  have hcompanion := fun o => (h o).2.2
  constructor
  · constructor <;> cases decl <;> first | rfl |
      simp [Decl.mapObject, Decl.key?, Decl.memberIds, Decl.index, Decl.scope?, Decl.companion?,
        hname, hscope, hcompanion]
  · cases decl <;> simp [Decl.mapObject, Decl.issued, Decl.scope?, hscope]

/-- A field that is edited stays where it is. -/
theorem samePlace_mapField (change : FieldDecl → FieldDecl) (decl : Decl) :
    SamePlace (decl.mapField change) decl ∧ (decl.mapField change).issued = decl.issued := by
  cases decl <;> exact ⟨⟨rfl, rfl, rfl, rfl, rfl⟩, rfl⟩

/-- A method that is edited stays where it is. -/
theorem samePlace_mapMethod (change : MethodDecl → MethodDecl) (decl : Decl) :
    SamePlace (decl.mapMethod change) decl ∧ (decl.mapMethod change).issued = decl.issued := by
  cases decl <;> exact ⟨⟨rfl, rfl, rfl, rfl, rfl⟩, rfl⟩

/-- The outcome of an edit in place. -/
private theorem outcome_edit {naming : Naming} {record : Record} {g g' : Graph} {id : DeclId}
    {change : Decl → Decl} {answer : Answer}
    (hplace : ∀ decl, SamePlace (change decl) decl ∧ (change decl).issued = decl.issued)
    (h : ((fun _ => Answer.edited) <$> Build.update (Graph.modify · id change)) g =
      .ok answer g') : Outcome naming record g record g' := by
  rcases Build.exists_of_map_eq_ok h with ⟨_, hrun, -⟩
  injection hrun with _ hg'
  subst hg'
  exact .edited (fun decl => (hplace decl).1) fun decl => (hplace decl).2

/-- Every granted request has one of five outcomes. -/
theorem Request.outcome {naming : Naming} {record : Record} {g g' : Graph} (hg : Coherent g)
    {request : Request} {answer : Answer} (hadmitted : request.Admitted naming record g)
    (h : request.perform g = .ok answer g') :
    Outcome naming record g (record.after request answer) g' := by
  cases request with
  | package container name =>
      rcases (perform_wanted_iff rfl).mp h with ⟨⟨hcontainer, hpackage⟩, rfl, rfl⟩
      exact outcome_ensured hcontainer rfl hpackage fun _ hne => absurd rfl hne
  | klass container name | object container name =>
      rcases (perform_wanted_iff rfl).mp h with ⟨⟨hcontainer, hpackage⟩, rfl, rfl⟩
      exact outcome_ensured hcontainer rfl hpackage fun hnew _ => hadmitted hnew
  | field container name | method container name | comment container text =>
      rcases (perform_added_iff rfl).mp h with ⟨hcontainer, rfl, rfl⟩
      exact outcome_enlist hcontainer rfl (by simp [Decl.kind])
  | issueName container =>
      rcases Build.exists_of_map_eq_ok h with ⟨name, hrun, rfl⟩
      rcases exists_of_issueName hrun with ⟨hcontainer, hleft, rfl, rfl⟩
      exact .issued hcontainer hleft
  | dropDuplicate container id =>
      rcases Build.exists_of_map_eq_ok h with ⟨dropped, hrun, rfl⟩
      rcases exists_of_dropDuplicate hg hrun with ⟨rfl, rfl⟩ | ⟨rfl, howner, hkind, rfl⟩
      · exact .found
      · exact .removed howner hkind
  | editClass id change => exact outcome_edit (samePlace_mapClass hadmitted) h
  | editObject id change => exact outcome_edit (samePlace_mapObject hadmitted) h
  | editField id change => exact outcome_edit (samePlace_mapField change) h
  | editMethod id change => exact outcome_edit (samePlace_mapMethod change) h

/-! ## What every built graph is -/

namespace Outcome

variable {naming : Naming} {record record' : Record} {g g' : Graph}

/-- An outcome keeps a graph consistent, also if it fills the last slot there is an id for. -/
theorem consistent (h : Outcome naming record g record' g') (hg : Coherent g) : Consistent g' := by
  cases h with
  | found => exact hg.toConsistent
  | enlisted hfits => exact hg.consistent_enlist hfits
  | edited hplace => exact (hg.modify fun decl _ => hplace decl).toConsistent
  | issued => exact (hg.modify fun decl _ => samePlace_mapScope_issue decl).toConsistent
  | removed howner hkind => exact (hg.detach howner hkind).toConsistent

/-- An outcome keeps a graph coherent if ids are left. -/
theorem coherent (h : Outcome naming record g record' g') (hg : Coherent g)
    (hsize : g'.size < UInt32.size) : Coherent g' :=
  ⟨h.consistent hg, hsize⟩

end Outcome

namespace Built

variable {naming : Naming} {record otherRecord : Record} {g other g' : Graph}

/-- Every graph that is built is coherent. -/
theorem coherent (h : Built naming record g) : Coherent g := by
  induction h with
  | new => exact Coherent.empty
  | request hbuilt hadmitted hrun hsize ih =>
      exact (Request.outcome ih hadmitted hrun).coherent ih hsize
  | merge hbuilt hother hrun hsize ih ihOther =>
      rw [← Build.final_of_ok hrun] at hsize
      rcases exists_log_of_merge ih ihOther hsize with ⟨forest, log, h, -, hmerge, hlog, -⟩
      rw [hrun] at hmerge
      injection hmerge with _ hg'
      rw [hg']
      exact hlog.coherent ih

/-- A merge of built graphs leaves a log. -/
theorem exists_log (h : Built naming record g) (hother : Built naming otherRecord other)
    (hrun : Graph.merge other g = .ok () g') (hsize : g'.size < UInt32.size) :
    ∃ forest log, Reads other (other.memberIds root) forest ∧
      Log g other (g.planned other forest) log g' ∧
      log.map Arrival.source = root :: forest.ids := by
  rw [← Build.final_of_ok hrun] at hsize
  rcases exists_log_of_merge h.coherent hother.coherent hsize with
    ⟨forest, log, h, hreads, hmerge, hlog, hsources⟩
  rw [hrun] at hmerge
  injection hmerge with _ hg'
  exact ⟨forest, log, hreads, hg' ▸ hlog, hsources⟩

end Built

/-! ## Playing requests -/

/-- Is it plain that the request may be made under issued names? Edits of classes and objects are
not looked into. -/
def Request.isPlain (record : Record) (g : Graph) : Request → Bool
  | klass container name => (g.lookup container (.klass, name)).isSome ||
      name.anonymousIndex?.isNone || (container, name) ∈ record.issued
  | object container name => (g.lookup container (.object, name)).isSome ||
      name.anonymousIndex?.isNone || (container, name) ∈ record.issued
  | editClass _ _ => false
  | editObject _ _ => false
  | _ => true

theorem Request.admitted_of_isPlain {record : Record} {g : Graph} {request : Request}
    (h : request.isPlain record g = true) : request.Admitted issuedName record g := by
  have hname : ∀ {found : Option DeclId} {container : DeclId} {name : Name},
      (found.isSome || name.anonymousIndex?.isNone ||
        (container, name) ∈ record.issued) = true →
      found = none → issuedName record container name := by
    intro found container name h hnone hindex
    rw [hnone] at h
    have hnot : name.anonymousIndex?.isNone = false := by
      rw [← Option.not_isSome, hindex, Bool.not_true]
    simpa [hnot] using h
  cases request with
  | klass container name => exact fun hnone => hname h hnone
  | object container name => exact fun hnone => hname h hnone
  | editClass id change => simp [isPlain] at h
  | editObject id change => simp [isPlain] at h
  | _ => trivial

/-- Make one request. -/
def playOne (state : Record × Graph) (request : Request) : Option (Record × Graph) :=
  if request.isPlain state.1 state.2 then
    match request.perform state.2 with
    | .ok answer g => if g.size < UInt32.size then some (state.1.after request answer, g) else none
    | .error _ _ => none
  else none

/-- Make requests one after the other, beginning with the root alone. -/
def play (requests : List Request) : Option (Record × Graph) :=
  requests.foldlM playOne ({}, Graph.empty)

/-- The record and the graph after requests that were all granted. -/
def played (requests : List Request) (h : (play requests).isSome) : Record × Graph :=
  (play requests).get h

/-- Playing requests builds a graph. -/
theorem built_played (requests : List Request) (h : (play requests).isSome) :
    Built issuedName (played requests h).1 (played requests h).2 := by
  have hone : ∀ {before after : Record × Graph} {request : Request},
      Built issuedName before.1 before.2 → playOne before request = some after →
      Built issuedName after.1 after.2 := by
    intro before after request hbuilt hplay
    unfold playOne at hplay
    split at hplay
    · next hplain =>
        split at hplay
        · next answer g hrun =>
            split at hplay
            · next hsize =>
                obtain rfl := Option.some.inj hplay
                exact .request hbuilt (Request.admitted_of_isPlain hplain) hrun hsize
            · contradiction
        · contradiction
    · contradiction
  have hall : ∀ (requests : List Request) {before after : Record × Graph},
      Built issuedName before.1 before.2 → requests.foldlM playOne before = some after →
      Built issuedName after.1 after.2 := by
    intro requests
    induction requests with
    | nil =>
        intro before after hbuilt hplay
        obtain rfl := Option.some.inj hplay
        exact hbuilt
    | cons request rest ih =>
        intro before after hbuilt hplay
        rw [List.foldlM_cons] at hplay
        rcases Option.bind_eq_some_iff.mp hplay with ⟨middle, hmiddle, hrest⟩
        exact ih (hone hbuilt hmiddle) hrest
  exact hall requests .new (Option.some_get h).symm

end DeclGraph

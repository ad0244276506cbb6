import DeclGraph.Proofs.Companions
import DeclGraph.Proofs.FreshNames
import DeclGraph.Proofs.IndexScan
import DeclGraph.Proofs.Stepwise
import DeclGraph.Proofs.Territories

/-!
# Refused requests

A request is made of a container, and it is refused for one of two reasons: the id
is not that of a container it could be made of, or the container has issued as many
names as it can count.  Whichever step of the request is the one to be refused,
nothing was written by then.  A request that is granted leaves a graph whose owners,
indexes and companions agree with its member lists, even if it fills the last slot
that there is an id for.

Main results:

- Theorem `Request.refused_iff`: for what reasons a request is refused.
- Theorem `Request.clean_perform`: a refused request has written nothing.
- Theorem `Built.contract`: what can be relied on when a built graph is asked
  anything.
-/

namespace DeclGraph

open DeclGraph.Graph

/-! ## Refusing -/

/-- The graph refuses a computation: it breaks off. -/
def Graph.Refuses {answer : Type} (g : Graph) (build : Build answer) : Prop :=
  ∃ violation g', build g = .error violation g'

/-- A computation is refused when the condition for an answer is not met. -/
theorem Graph.refuses_iff {answer : Type} {g : Graph} {build : Build answer} {granted : Prop}
    (h : (∃ a g', build g = .ok a g') ↔ granted) : g.Refuses build ↔ ¬ granted := by
  rw [← h, Graph.Refuses]
  cases build g <;> simp

namespace Build

variable {α β : Type}

/-- If the computation breaks off, it has written nothing. -/
def Clean (build : Build α) : Prop :=
  ∀ (violation : Violation) (g g' : Graph), build g = .error violation g' → g' = g

theorem clean_checked {found : Type} (check : Graph → Except Violation found)
    (act : found → Graph → α × Graph) : Clean (checked check act) := by
  intro violation g g' h
  cases hcheck : check g with
  | ok value =>
      rw [checked_of_ok hcheck] at h
      contradiction
  | error refusal =>
      rw [checked_of_error hcheck] at h
      injection h with _ hg
      exact hg.symm

theorem clean_update (change : Graph → Graph) : Clean (update change) := by
  intro violation g g' h
  contradiction

theorem Clean.map {build : Build α} (hclean : Clean build) (f : α → β) : Clean (f <$> build) := by
  intro violation g g' h
  cases hrun : build g with
  | ok a found =>
      rw [map_of_ok hrun] at h
      contradiction
  | error refusal found =>
      rw [map_of_error hrun] at h
      injection h with _ hg
      exact hg ▸ hclean refusal g found hrun

end Build

/-! ## Reasons for a refusal -/

/-- Is this the id of a package, a class or an object of the graph? -/
def Graph.HasContainer (g : Graph) (id : DeclId) : Prop :=
  (g.package? id).isSome ∨ (g.klass? id).isSome ∨ (g.object? id).isSome

instance (g : Graph) (id : DeclId) : Decidable (g.HasContainer id) :=
  inferInstanceAs (Decidable (_ ∨ _ ∨ _))

/-- The containers are what is looked up by a key. -/
theorem Graph.hasContainer_iff {g : Graph} {id : DeclId} :
    g.HasContainer id ↔ (g.key? id).isSome := by
  cases hget : g.get? id with
  | none => simp [HasContainer, package?, klass?, object?, key?, hget]
  | some decl =>
      cases decl <;> simp [HasContainer, package?, klass?, object?, key?, hget, Decl.package?,
        Decl.klass?, Decl.object?, Decl.key?]

namespace Request

/-- Is the request made of an id that it cannot be made of? Packages are made in packages only.
Methods are taken out of containers only, but an id that is no method is not looked for at all. -/
def Misplaced (g : Graph) : Request → Prop
  | package container _ => ¬ (g.package? container).isSome
  | klass container _ | object container _ | field container _ | method container _
  | comment container _ | issueName container => ¬ g.HasContainer container
  | dropDuplicate container id => (g.method? id).isSome ∧ ¬ g.HasContainer container
  | editClass _ _ | editObject _ _ | editField _ _ | editMethod _ _ => False

/-- Is a name asked of a container that cannot count one more? -/
def Exhausted (g : Graph) : Request → Prop
  | issueName container => ¬ (g.issued container).toNat + 1 < UInt32.size
  | _ => False

variable {g g' : Graph} {request : Request} {container : DeclId}

/-- A package is found or made in packages, a class or object in all containers. -/
theorem granted_wanted_iff {key : Key} (h : request.wanted? = some (container, key)) :
    (∃ answer g', request.perform g = .ok answer g') ↔
      (g.key? container).isSome ∧ (key.1 = .package → g.kind? container = some .package) := by
  simp only [perform_wanted_iff h, exists_and_left, exists_eq, and_true]

/-- A member is added to all containers. -/
theorem granted_added_iff {decl : Decl} (h : request.added? = some (container, decl)) :
    (∃ answer g', request.perform g = .ok answer g') ↔ (g.key? container).isSome := by
  simp only [perform_added_iff h, exists_and_left, exists_eq, and_true]

/-- A name is issued by all containers that have one left. -/
theorem granted_issueName_iff :
    (∃ answer g', (issueName container).perform g = .ok answer g') ↔
      (g.key? container).isSome ∧ (g.issued container).toNat + 1 < UInt32.size := by
  constructor
  · rintro ⟨answer, g', h⟩
    obtain ⟨name, hissue, -⟩ := Build.exists_of_map_eq_ok h
    obtain ⟨hcontainer, hleft, -⟩ := exists_of_issueName hissue
    exact ⟨hcontainer, hleft⟩
  · rintro ⟨hcontainer, hleft⟩
    obtain ⟨g', hissue⟩ := exists_issueName hcontainer hleft
    exact ⟨_, g', Build.map_of_ok hissue _⟩

/-- A method is asked for in containers only. -/
theorem granted_dropDuplicate_iff {id : DeclId} :
    (∃ answer g', (dropDuplicate container id).perform g = .ok answer g') ↔
      ((g.method? id).isSome → (g.key? container).isSome) := by
  constructor
  · rintro ⟨answer, g', h⟩
    obtain ⟨dropped, hdrop, -⟩ := Build.exists_of_map_eq_ok h
    obtain ⟨duplicate, hduplicate, -⟩ := Build.exists_of_checked_eq_ok hdrop
    exact (isDuplicate_eq_ok_iff.mp hduplicate).1
  · intro hcontainer
    have hduplicate := isDuplicate_eq_ok_iff.mpr ⟨hcontainer, rfl⟩
    exact ⟨_, _, Build.map_of_ok (Build.checked_of_ok hduplicate) _⟩

/-- An edit is made in every graph. -/
theorem granted_edit (hedit : request.target? = none) :
    ∃ answer g', request.perform g = .ok answer g' := by
  cases request with
  | editClass | editObject | editField | editMethod => exact ⟨_, _, rfl⟩
  | _ => contradiction

/-- A request is refused if it is misplaced, or if there is no name left to issue. -/
theorem refused_iff (g : Graph) (request : Request) :
    g.Refuses request.perform ↔ request.Misplaced g ∨ request.Exhausted g := by
  cases request with
  | package container name =>
      have hpackage : g.kind? container = some .package → (g.key? container).isSome :=
        isSome_key?_of_package
      rw [refuses_iff (granted_wanted_iff rfl)]
      simp only [Misplaced, Exhausted, or_false, isSome_package?_iff]
      tauto
  | klass container name | object container name =>
      rw [refuses_iff (granted_wanted_iff rfl)]
      simp only [Misplaced, Exhausted, or_false, hasContainer_iff, reduceCtorEq, false_implies,
        and_true]
  | field container name | method container name | comment container text =>
      rw [refuses_iff (granted_added_iff rfl)]
      simp only [Misplaced, Exhausted, or_false, hasContainer_iff]
  | issueName container =>
      rw [refuses_iff granted_issueName_iff]
      simp only [Misplaced, Exhausted, hasContainer_iff, not_and_or]
  | dropDuplicate container id =>
      rw [refuses_iff granted_dropDuplicate_iff]
      simp only [Misplaced, Exhausted, or_false, hasContainer_iff, Classical.not_imp]
  | editClass | editObject | editField | editMethod =>
      rw [refuses_iff (iff_true_intro (granted_edit rfl))]
      simp only [Misplaced, Exhausted, or_false, not_true]

/-- A request that is refused has written nothing. -/
theorem clean_perform (request : Request) : Build.Clean request.perform := by
  cases request with
  | package | klass | object | issueName | dropDuplicate => exact (Build.clean_checked _ _).map _
  | field container name | method container name | comment container text =>
      have hadd : ∀ decl, Build.Clean (addMember container decl) :=
        fun decl => Build.clean_checked _ _
      exact (hadd _).map _
  | editClass | editObject | editField | editMethod => exact (Build.clean_update _).map _

end Request

/-! ## The contract -/

/-- Owners, indexes and companions agree with the member lists, and `removed` are the methods that
were taken out. -/
structure Graph.Agrees (removed : List DeclId) (g : Graph) : Prop where
  /-- The table of owners agrees with the member lists. -/
  owners : OwnerTree removed g
  /-- The indexes agree with them. -/
  index : IndexLaw g
  /-- The companions agree with them. -/
  companions : CompanionLaw g

/-- An outcome leaves a graph that agrees with itself. -/
theorem Outcome.agrees {naming : Naming} {record record' : Record} {g g' : Graph}
    (hout : Outcome naming record g record' g') (hg : Coherent g)
    (hacc : Accounted record.removed g) : Graph.Agrees record'.removed g' where
  owners := (hout.consistent hg).toOwnerTree (hacc.outcome hg hout)
  index := (hout.consistent hg).toIndexLaw
  companions := (hout.consistent hg).toCompanionLaw

/-- What can be relied on when a request is made of a graph. -/
structure Request.Contract (request : Request) (record : Record) (g : Graph) : Prop where
  /-- The steps of the request come to the request, also where one of them is refused. -/
  stepwise_eq : request.stepwise g = request.perform g
  /-- It is refused if it is misplaced, or if there is no name left to issue. -/
  refused_iff : g.Refuses request.perform ↔ request.Misplaced g ∨ request.Exhausted g
  /-- If it is refused, the graph is as it was. -/
  unchanged : ∀ {violation : Violation} {g' : Graph},
    request.perform g = .error violation g' → g' = g
  /-- If it is granted, owners, indexes and companions agree afterwards. -/
  agrees : ∀ {answer : Answer} {g' : Graph}, request.perform g = .ok answer g' →
    Graph.Agrees (record.after request answer).removed g'

/-- Every request to a built graph is refused for a reason and without a trace, or leaves a graph
that agrees with itself. -/
theorem Built.contract {naming : Naming} {record : Record} {g : Graph}
    (h : Built naming record g) {request : Request} {container : DeclId}
    (htarget : request.target? = some container) : request.Contract record g where
  stepwise_eq := request.stepwise_eq h.coherent
  refused_iff := request.refused_iff g
  unchanged := request.clean_perform _ g _
  agrees := by
    intro answer g' hrun
    -- The last id may be spent on this request: then `g'` agrees, but is not itself a built graph.
    have hadmitted := Request.admitted_of_target? htarget record g
    exact (Request.outcome h.coherent hadmitted hrun).agrees h.coherent h.accounted

/-- A class with a field and two methods that are alike. Of the field the method cannot be taken
out, and this is refused; of the class it can. -/
theorem contract_of_misplaced : ∃ record g, Built issuedName record g ∧
    (Request.dropDuplicate ⟨2⟩ ⟨4⟩).target? = some ⟨2⟩ ∧
    (Request.dropDuplicate ⟨2⟩ ⟨4⟩).Misplaced g ∧
    (Request.dropDuplicate ⟨2⟩ ⟨4⟩).Contract record g ∧
    (Request.dropDuplicate ⟨1⟩ ⟨4⟩).target? = some ⟨1⟩ ∧
    (Request.dropDuplicate ⟨1⟩ ⟨4⟩).Contract record g := by
  have hbuilt := built_played [.klass root ⟨"C"⟩, .field ⟨1⟩ ⟨"x"⟩, .method ⟨1⟩ ⟨"m"⟩,
    .method ⟨1⟩ ⟨"m"⟩] rfl
  exact ⟨_, _, hbuilt, rfl, ⟨by decide +kernel, by decide +kernel⟩,
    Built.contract hbuilt rfl, rfl, Built.contract hbuilt rfl⟩

end DeclGraph

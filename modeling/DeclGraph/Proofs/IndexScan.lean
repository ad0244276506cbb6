import DeclGraph.Proofs.Ownership

/-!
# Index and scan

A container keeps its packages, classes and objects in an index beside the list of
its members.  Requests ask the index only.  In every graph that is built the answer
is that of a scan of the members by kind and name, and no scan could find more than
one member.

Main results:

- Theorem `Consistent.find?_eq_some_iff`: what the index finds are the members of that
  kind and name.
- Theorem `Consistent.find?_eq_scan`: asking the index is scanning the members.
- Theorems `Consistent.toIndexLaw` and `Built.indexLaw`: index and scan agree in every
  consistent and every built graph.
-/

namespace DeclGraph
namespace Graph

/-! ## Scanning the members -/

/-- Is this a declaration of that kind and name? -/
def declares (g : Graph) (kind : Kind) (name : Name) (id : DeclId) : Bool :=
  (g.get? id).any fun decl => decl.kind = kind && decl.name? = some name

/-- The first member of a container that is of that kind and name, found by looking at one member
after the other. -/
def scan (g : Graph) (kind : Kind) (container : DeclId) (name : Name) :
    Except Violation (Option DeclId) :=
  (g.members container).map fun ids => ids.find? (g.declares kind name)

theorem declares_iff {g : Graph} {kind : Kind} {name : Name} {id : DeclId} :
    g.declares kind name id = true ↔
      ∃ decl, g.get? id = some decl ∧ decl.kind = kind ∧ decl.name? = some name := by
  simp [declares, Option.any_eq_true]

/-- For packages, classes and objects, kind and name are the key. -/
theorem declares_iff_key? {g : Graph} {kind : Kind} (hkind : kind.isContainer = true) {name : Name}
    {id : DeclId} : g.declares kind name id = true ↔ g.key? id = some (kind, name) := by
  rw [declares_iff]
  constructor
  · intro hgiven
    rcases hgiven with ⟨decl, hdecl, rfl, hname⟩
    rw [key?, hdecl, Option.bind_some]
    cases decl <;> simp only [Decl.kind, Kind.isContainer, Bool.false_eq_true] at hkind <;>
      simpa [Decl.key?, Decl.kind, Decl.name?] using hname
  · intro hkey
    rcases Option.bind_eq_some_iff.mp hkey with ⟨decl, hdecl, hdeclKey⟩
    refine ⟨decl, hdecl, Decl.kind_of_key? hdeclKey, ?_⟩
    cases decl <;> simp [Decl.key?] at hdeclKey <;> simp [Decl.name?, hdeclKey]

/-! ## The index of a coherent graph -/

/-- A container that shows its members answers from its index. -/
theorem find?_of_members {g : Graph} {container : DeclId} {ids : List DeclId}
    (h : g.members container = .ok ids) (kind : Kind) (name : Name) :
    g.find? kind container name = .ok (g.lookup container (kind, name)) :=
  find?_eq_ok_iff.mpr ⟨(members_eq_ok_iff.mp h).1, rfl⟩

namespace Consistent

variable {g : Graph} (hg : Consistent g) {container : DeclId} {ids : List DeclId} {kind : Kind}
  {name : Name}

include hg

/-- What the index finds is the member of that kind and name. -/
theorem find?_eq_some_iff (hkind : kind.isContainer = true) (hids : g.members container = .ok ids)
    {id : DeclId} : g.find? kind container name = .ok (some id) ↔
      id ∈ ids ∧ g.declares kind name id = true := by
  rw [find?_of_members hids, Except.ok.injEq, hg.lookup_eq_some, hg.mem_members hids,
    declares_iff_key? hkind]

/-- A container has one member of a kind and name at most. -/
theorem eq_of_declares (hkind : kind.isContainer = true) (hids : g.members container = .ok ids)
    {a b : DeclId} (ha : a ∈ ids) (hb : b ∈ ids) (haDeclares : g.declares kind name a = true)
    (hbDeclares : g.declares kind name b = true) : a = b :=
  hg.eq_of_key?_eq ((hg.mem_members hids).mp ha) ((hg.mem_members hids).mp hb)
    ((declares_iff_key? hkind).mp haDeclares) ((declares_iff_key? hkind).mp hbDeclares)

/-- Asking the index is scanning the members, and refused where there are none to scan. -/
theorem find?_eq_scan (hkind : kind.isContainer = true) (container : DeclId) (name : Name) :
    g.find? kind container name = g.scan kind container name := by
  cases hscope : g.scope container with
  | error violation => simp [find?, scan, members, hscope, Except.map]
  | ok scope =>
      have hmembers : g.members container = .ok scope.members := by
        simp [members, hscope, Except.map]
      have hscan : g.scan kind container name =
          .ok (scope.members.find? (g.declares kind name)) := by
        simp [scan, hmembers, Except.map]
      rw [hscan]
      cases hfound : scope.members.find? (g.declares kind name) with
      | some id =>
          rw [hg.find?_eq_some_iff hkind hmembers]
          exact ⟨List.mem_of_find?_eq_some hfound, List.find?_some hfound⟩
      | none =>
          rw [find?_of_members hmembers]
          cases hlookup : g.lookup container (kind, name) with
          | none => rfl
          | some id =>
              -- What the index finds would have been met by the scan.
              have hfind := (find?_of_members hmembers kind name).trans (by rw [hlookup])
              rcases (hg.find?_eq_some_iff hkind hmembers).mp hfind with ⟨hid, hdeclares⟩
              exact absurd hdeclares (List.find?_eq_none.mp hfound id hid)

end Consistent

/-- The index of every container agrees with its members. -/
structure IndexLaw (g : Graph) : Prop where
  /-- A package, class or object is found exactly if it is a member of that kind and name. -/
  found : ∀ {kind : Kind} {container : DeclId} {ids : List DeclId}, kind.isContainer = true →
    g.members container = .ok ids → ∀ (name : Name) (id : DeclId),
    g.find? kind container name = .ok (some id) ↔
      id ∈ ids ∧ ∃ decl, g.get? id = some decl ∧ decl.kind = kind ∧ decl.name? = some name
  /-- One member at most is of that kind and name. -/
  unique : ∀ {kind : Kind} {container : DeclId} {ids : List DeclId} {name : Name} {a b : DeclId},
    kind.isContainer = true → g.members container = .ok ids → a ∈ ids → b ∈ ids →
    g.declares kind name a = true → g.declares kind name b = true → a = b
  /-- Asking the index is scanning the members. -/
  find?_eq_scan : ∀ {kind : Kind}, kind.isContainer = true → ∀ (container : DeclId) (name : Name),
    g.find? kind container name = g.scan kind container name

/-- Index and scan agree in every consistent graph. -/
theorem Consistent.toIndexLaw {g : Graph} (hg : Consistent g) : IndexLaw g where
  found := by
    intro kind container ids hkind hids name id
    rw [hg.find?_eq_some_iff hkind hids, declares_iff]
  unique := by
    intro kind container ids name a b hkind hids ha hb
    exact hg.eq_of_declares hkind hids ha hb
  find?_eq_scan := by
    intro kind hkind container name
    exact hg.find?_eq_scan hkind container name

end Graph

open DeclGraph.Graph

/-- Index and scan agree in every graph that is built. -/
theorem Built.indexLaw {naming : Naming} {record : Record} {g : Graph}
    (h : Built naming record g) : IndexLaw g :=
  h.coherent.toConsistent.toIndexLaw

/-- A class with its object and with two methods of its name, one of which was taken out. -/
theorem indexLaw_of_namesakes : ∃ record g, Built issuedName record g ∧
    g.members root = .ok [⟨1⟩, ⟨2⟩, ⟨3⟩] ∧ g.find? .object root ⟨"C"⟩ = .ok (some ⟨3⟩) ∧
    IndexLaw g := by
  have hbuilt := built_played [.klass root ⟨"C"⟩, .method root ⟨"C"⟩, .object root ⟨"C"⟩,
    .method root ⟨"C"⟩, .dropDuplicate root ⟨4⟩] rfl
  exact ⟨_, _, hbuilt, by decide +kernel, by decide +kernel, Built.indexLaw hbuilt⟩

end DeclGraph

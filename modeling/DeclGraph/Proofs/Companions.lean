import DeclGraph.Proofs.Ownership

/-!
# Companions

A class and an object are companions exactly when they are members of one
container under one name.  This is so in every graph that is built, whichever of
the two was made first and whether or not either of them came in by a merge.

Main results:

- Theorem `Consistent.companion?_iff`: companions are siblings of one name.
- Theorems `Consistent.toCompanionLaw` and `Built.companionLaw`: the law of
  companions in every consistent and every built graph.
-/

namespace DeclGraph
namespace Graph

/-- A class and an object that are members of one container under one name. -/
def Siblings (g : Graph) (klass object : DeclId) : Prop :=
  ∃ container ids k o, g.members container = .ok ids ∧ klass ∈ ids ∧ object ∈ ids ∧
    g.klass? klass = some k ∧ g.object? object = some o ∧ k.name = o.name

theorem key?_eq_klass_iff {g : Graph} {id : DeclId} {name : Name} :
    g.key? id = some (.klass, name) ↔ ∃ k, g.klass? id = some k ∧ k.name = name := by
  cases hget : g.get? id with
  | none => simp [key?, klass?, hget]
  | some decl => cases decl <;> simp [key?, klass?, hget, Decl.key?, Decl.klass?]

theorem key?_eq_object_iff {g : Graph} {id : DeclId} {name : Name} :
    g.key? id = some (.object, name) ↔ ∃ o, g.object? id = some o ∧ o.name = name := by
  cases hget : g.get? id with
  | none => simp [key?, object?, hget]
  | some decl => cases decl <;> simp [key?, object?, hget, Decl.key?, Decl.object?]

namespace Consistent

variable {g : Graph}

/-- Siblings are owned by one container under partner keys. -/
theorem siblings_iff (hg : Consistent g) {klass object : DeclId} :
    g.Siblings klass object ↔ ∃ container name, g.owner? klass = some container ∧
      g.owner? object = some container ∧ g.key? klass = some (.klass, name) ∧
      g.key? object = some (.object, name) := by
  constructor
  · intro hgiven
    rcases hgiven with ⟨container, ids, k, o, hids, hklass, hobject, hk, ho, hname⟩
    refine ⟨container, k.name, (hg.mem_members hids).mp hklass, (hg.mem_members hids).mp hobject,
      key?_eq_klass_iff.mpr ⟨k, hk, rfl⟩, key?_eq_object_iff.mpr ⟨o, ho, hname.symm⟩⟩
  · intro hgiven
    rcases hgiven with ⟨container, name, hklass, hobject, hklassKey, hobjectKey⟩
    rcases hg.exists_members hklass with ⟨ids, hids, hmember⟩
    rcases key?_eq_klass_iff.mp hklassKey with ⟨k, hk, hkName⟩
    rcases key?_eq_object_iff.mp hobjectKey with ⟨o, ho, hoName⟩
    exact ⟨container, ids, k, o, hids, hmember, (hg.mem_members hids).mpr hobject, hk, ho,
      hkName.trans hoName.symm⟩

/-- Companions are siblings of one name. -/
theorem companion?_iff (hg : Consistent g) (x y : DeclId) :
    g.companion? x = some y ↔ g.Siblings x y ∨ g.Siblings y x := by
  rw [hg.companion?_eq_some, hg.siblings_iff, hg.siblings_iff]
  constructor
  · intro hgiven
    rcases hgiven with ⟨container, ⟨kind, name⟩, partner, hx, hy, hxKey, hpartner, hyKey⟩
    cases kind <;> simp only [Key.partner?, reduceCtorEq, Option.some.injEq] at hpartner <;>
      subst hpartner
    · exact Or.inl ⟨container, name, hx, hy, hxKey, hyKey⟩
    · exact Or.inr ⟨container, name, hy, hx, hyKey, hxKey⟩
  · intro hgiven
    rcases hgiven with
      ⟨container, name, hx, hy, hxKey, hyKey⟩ | ⟨container, name, hy, hx, hyKey, hxKey⟩
    · exact ⟨container, _, _, hx, hy, hxKey, rfl, hyKey⟩
    · exact ⟨container, _, _, hx, hy, hxKey, rfl, hyKey⟩

end Consistent

/-- The law of companions. -/
structure CompanionLaw (g : Graph) : Prop where
  /-- A class and an object are companions exactly if they are siblings of one name. -/
  linked : ∀ x y, g.companion? x = some y ↔ g.Siblings x y ∨ g.Siblings y x
  /-- The link goes both ways. -/
  symmetric : ∀ x y, g.companion? x = some y → g.companion? y = some x
  /-- Nothing is the companion of two declarations. -/
  unique : ∀ x x' y, g.companion? x = some y → g.companion? x' = some y → x = x'

/-- The law of companions holds in every consistent graph. -/
theorem Consistent.toCompanionLaw {g : Graph} (hg : Consistent g) : CompanionLaw g := by
  have hlinked := hg.companion?_iff
  have hsymmetric : ∀ x y, g.companion? x = some y → g.companion? y = some x := by
    intro x y hxy
    rw [hlinked] at hxy ⊢
    exact hxy.symm
  refine ⟨hlinked, hsymmetric, ?_⟩
  intro x x' y hx hx'
  have hy := hsymmetric x y hx
  rw [hsymmetric x' y hx'] at hy
  exact (Option.some.inj hy).symm

end Graph

open DeclGraph.Graph

/-- The law of companions holds in every graph that is built. -/
theorem Built.companionLaw {naming : Naming} {record : Record} {g : Graph}
    (h : Built naming record g) : CompanionLaw g :=
  h.coherent.toConsistent.toCompanionLaw

/-- The object was made before the class, and they are companions. -/
theorem companionLaw_of_object_first : ∃ record g, Built issuedName record g ∧
    g.companion? ⟨1⟩ = some ⟨2⟩ ∧ CompanionLaw g := by
  have hbuilt := built_played [.object root ⟨"C"⟩, .klass root ⟨"C"⟩] rfl
  exact ⟨_, _, hbuilt, rfl, Built.companionLaw hbuilt⟩

end DeclGraph

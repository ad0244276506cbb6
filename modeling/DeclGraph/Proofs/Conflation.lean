import Mathlib.Data.Set.Function
import DeclGraph.Proofs.References

/-!
# Containers that become one

A container goes where its owner goes, under its merged name.  So two containers
become one if their owners do and their merged names are the same.  Among the
members of one container that happens where numbers clash: `anon$1` and `anon$01`
have one number, and two numbers that both run out of 32 bits are shifted to the
last one.

Main results:

- Theorem `Graph.Merging.image_eq_image_iff`: which containers become one.
- Theorem `Graph.Merging.injOn_image_iff`: different containers become different
  containers exactly if no two members of one container clash.
- Theorem `Built.conflated_iff`: both for the merge of any two built graphs.
-/

namespace DeclGraph
namespace Graph

/-! ## Clashing members -/

/-- Two members of a container of `other` clash if they are both classes or both objects, if their
container goes into one that has issued names, and if their numbers are shifted to one. -/
def Clashing (g other : Graph) (image : DeclId → DeclId) (a b : DeclId) : Prop :=
  ∃ c kind name name', other.owner? a = some c ∧ other.owner? b = some c ∧
    other.key? a = some (kind, name) ∧ other.key? b = some (kind, name') ∧
    g.issued (image c) ≠ 0 ∧ kind ≠ .package ∧ Name.Clash (g.issued (image c)) name name'

/-- Two containers are called alike if their owners become one, if they are of one kind, and if
they have one name or names that clash there. -/
def CalledAlike (g other : Graph) (image : DeclId → DeclId) (a b : DeclId) : Prop :=
  ∃ c c' kind name name', other.owner? a = some c ∧ other.owner? b = some c' ∧
    image c = image c' ∧ other.key? a = some (kind, name) ∧ other.key? b = some (kind, name') ∧
    (name = name' ∨
      g.issued (image c) ≠ 0 ∧ kind ≠ .package ∧ Name.Clash (g.issued (image c)) name name')

namespace Merging

variable {g other merged : Graph} {forest : Forest} {log : List Arrival}
  (hm : Merging g other merged forest log)

include hm

/-- What has an owner does not become the root. -/
theorem image_ne_root {c d : DeclId} (howner : other.owner? d = some c)
    (hd : (other.key? d).isSome) : imageIn log d ≠ root := by
  intro hroot
  have howned := (hm.mergedKey?_image howner hd).2
  rw [hroot, hm.merged_coherent.owner?_root] at howned
  contradiction

/-- Two containers become one exactly if they are one or called alike. -/
theorem image_eq_image_iff {a b : DeclId} (ha : (other.key? a).isSome)
    (hb : (other.key? b).isSome) : imageIn log a = imageIn log b ↔
      a = b ∨ CalledAlike g other (imageIn log) a b := by
  constructor
  · intro hsame
    rcases hm.other_coherent.eq_root_or_owned ha with rfl | ⟨c, haOwner⟩ <;>
      rcases hm.other_coherent.eq_root_or_owned hb with rfl | ⟨c', hbOwner⟩
    · exact Or.inl rfl
    · rw [hm.image_root] at hsame
      exact absurd hsame.symm (hm.image_ne_root hbOwner hb)
    · rw [hm.image_root] at hsame
      exact absurd hsame (hm.image_ne_root haOwner ha)
    · rcases Option.isSome_iff_exists.mp ha with ⟨⟨kind, name⟩, haKey⟩
      rcases Option.isSome_iff_exists.mp hb with ⟨⟨kind', name'⟩, hbKey⟩
      rcases hm.key?_image haOwner haKey with ⟨haMerged, haInto⟩
      rcases hm.key?_image hbOwner hbKey with ⟨hbMerged, hbInto⟩
      rw [hsame] at haMerged haInto
      have howners : imageIn log c = imageIn log c' := Option.some.inj (haInto.symm.trans hbInto)
      have hkeys := Option.some.inj (haMerged.symm.trans hbMerged)
      obtain ⟨rfl, hnames⟩ := Prod.mk.inj hkeys
      rw [← howners] at hnames
      exact Or.inr ⟨c, c', kind, name, name', haOwner, hbOwner, howners, haKey, hbKey,
        Name.merged_eq_iff.mp hnames⟩
  · rintro (rfl | ⟨c, c', kind, name, name', haOwner, hbOwner, howners, haKey, hbKey, hnames⟩)
    · rfl
    · rcases hm.key?_image haOwner haKey with ⟨haMerged, haInto⟩
      rcases hm.key?_image hbOwner hbKey with ⟨hbMerged, hbInto⟩
      rw [← howners] at hbInto hbMerged
      rw [Name.merged_eq_iff.mpr hnames] at haMerged
      exact hm.merged_coherent.eq_of_key?_eq haInto hbInto haMerged hbMerged

/-- Different containers become different containers exactly if no two members of one container
clash. -/
theorem injOn_image_iff : Set.InjOn (imageIn log) {d | (other.key? d).isSome} ↔
    ∀ a b, Clashing g other (imageIn log) a b → a = b := by
  constructor
  · intro hinjective a b hclash
    rcases hclash with ⟨c, kind, name, name', haOwner, hbOwner, haKey, hbKey, hnames⟩
    have ha : (other.key? a).isSome := by rw [haKey, Option.isSome_some]
    have hb : (other.key? b).isSome := by rw [hbKey, Option.isSome_some]
    exact hinjective ha hb ((hm.image_eq_image_iff ha hb).mpr (Or.inr
      ⟨c, c, kind, name, name', haOwner, hbOwner, rfl, haKey, hbKey, Or.inr hnames⟩))
  · intro hnone a ha b hb hsame
    -- Downwards from the root: owners that become one are one already.
    induction hindex : a.index using Nat.strongRecOn generalizing a b with
    | ind index ih =>
        rcases (hm.image_eq_image_iff ha hb).mp hsame with heq |
          ⟨c, c', kind, name, name', haOwner, hbOwner, howners, haKey, hbKey, hnames⟩
        · exact heq
        · have hlt := hm.other_coherent.owner_lt haOwner
          have hcontainers := ih c.index (by omega)
            (hm.other_coherent.isSome_key?_of_owner? haOwner)
            (hm.other_coherent.isSome_key?_of_owner? hbOwner) howners rfl
          rw [← hcontainers] at hbOwner
          rcases hnames with rfl | hclash
          · exact hm.other_coherent.eq_of_key?_eq haOwner hbOwner haKey hbKey
          · exact hnone a b ⟨c, kind, name, name', haOwner, hbOwner, haKey, hbKey, hclash⟩

end Merging

end Graph

open DeclGraph.Graph

/-- Merging built graphs goes through, as long as there are slots for what comes in.  Two containers
become one exactly if they are called alike, and none do exactly if no two members of one container
clash. -/
theorem Built.conflated_iff {naming : Naming} {record otherRecord : Record} {g other : Graph}
    (hg : Built naming record g) (hother : Built naming otherRecord other)
    (hsize : ((Graph.merge other).final g).size < UInt32.size) :
    ∃ merged plan image, Graph.merge other g = .ok () merged ∧
      Transfer g other merged plan image ∧
      (∀ a b, (other.key? a).isSome → (other.key? b).isSome →
        (image a = image b ↔ a = b ∨ CalledAlike g other image a b)) ∧
      (Set.InjOn image {d | (other.key? d).isSome} ↔
        ∀ a b, Clashing g other image a b → a = b) := by
  rcases hg.exists_merging hother hsize with ⟨merged, forest, log, hmerge, hm⟩
  exact ⟨merged, _, _, hmerge, hm.transfer, fun a b ha hb => hm.image_eq_image_iff ha hb,
    hm.injOn_image_iff⟩

/-- Two graphs that each have an anonymous class in the class of one name. -/
theorem conflated_iff_of_anonymous : ∃ record otherRecord g other, Built issuedName record g ∧
    Built issuedName otherRecord other ∧ ∃ merged plan image,
      Graph.merge other g = .ok () merged ∧ Transfer g other merged plan image ∧
      (∀ a b, (other.key? a).isSome → (other.key? b).isSome →
        (image a = image b ↔ a = b ∨ CalledAlike g other image a b)) ∧
      (Set.InjOn image {d | (other.key? d).isSome} ↔
        ∀ a b, Clashing g other image a b → a = b) := by
  have hg := built_played [.klass root ⟨"C"⟩, .issueName ⟨1⟩, .klass ⟨1⟩ ⟨"anon$1"⟩] rfl
  have hother := built_played [.klass root ⟨"C"⟩, .issueName ⟨1⟩, .klass ⟨1⟩ ⟨"anon$1"⟩,
    .object ⟨1⟩ ⟨"anon$1"⟩] rfl
  exact ⟨_, _, _, _, hg, hother, Built.conflated_iff hg hother (by decide +kernel)⟩

/-- The classes `anon$1` and `anon$01` in the root, merged into a graph whose root has issued a
name: both become `anon$2`. -/
theorem conflated_leading_zero : ∃ record otherRecord g other, Built anyName record g ∧
    Built anyName otherRecord other ∧ ∃ merged plan image,
      Graph.merge other g = .ok () merged ∧ Transfer g other merged plan image ∧
      other.key? ⟨1⟩ = some (.klass, ⟨"anon$1"⟩) ∧ other.key? ⟨2⟩ = some (.klass, ⟨"anon$01"⟩) ∧
      image ⟨1⟩ = image ⟨2⟩ ∧ merged.key? (image ⟨1⟩) = some (.klass, ⟨"anon$2"⟩) := by
  have hadmitted : ∀ record g container name,
      Request.Admitted anyName record g (.klass container name) := fun _ _ _ _ _ => trivial
  have hissue : ∀ record g container, Request.Admitted anyName record g (.issueName container) :=
    fun _ _ _ => trivial
  have hg := Built.request Built.new (hissue _ _ root) rfl (by decide +kernel)
  have hfirst := Built.request Built.new (hadmitted _ _ root ⟨"anon$1"⟩) rfl (by decide +kernel)
  have hother := Built.request hfirst (hadmitted _ _ root ⟨"anon$01"⟩) rfl (by decide +kernel)
  rcases hg.exists_merging hother (by decide +kernel) with ⟨merged, forest, log, hmerge, hm⟩
  refine ⟨_, _, _, _, hg, hother, merged, _, _, hmerge, hm.transfer, rfl, rfl, ?_, ?_⟩
  · refine (hm.image_eq_image_iff rfl rfl).mpr (Or.inr ⟨root, root, .klass, _, _, rfl, rfl, rfl, rfl,
      rfl, Or.inr ⟨?_, by decide, 1, 1, by decide +kernel, by decide +kernel, Or.inl rfl⟩⟩)
    rw [hm.image_root]
    decide +kernel
  · rw [(hm.mergedKey?_image (c := root) rfl rfl).1]
    decide +kernel

end DeclGraph

import DeclGraph.Proofs.Adjoining
import DeclGraph.Proofs.Reproduction

/-!
# Merging what meets nothing

A graph that has nothing but packages below its root meets nothing in a graph that
has none of these packages.  Then a merge puts it beside that graph: no name is
shifted, no reference redirected and no method dropped, and only a parent that a
class mentions again is not mentioned again.

Main results:

- Theorem `Graph.Apart.site_eq_none`: where the roots have no package in common,
  nothing below them meets anything.
- Theorem `Graph.Apart.planned_eq_nil`: nothing is renamed then.
- Theorem `Graph.Merging.beside`: a merge puts the incoming graph beside what is there.
-/

namespace DeclGraph

theorem Decl.transparent_distinctParents : Transparent Decl.distinctParents where
  key := Decl.key?_distinctParents
  leaf := fun _ => Decl.distinctParents_of_key?_eq_none

namespace Graph

/-! ## Graphs of other packages -/

/-- The graph `other` has packages only in its root, which has issued no names, and the root of `g`
has none of them. -/
structure Apart (g other : Graph) : Prop where
  issued : other.issued root = 0
  package : ∀ {id}, other.owner? id = some root →
    ∃ name, other.key? id = some (.package, name) ∧ g.lookup root (.package, name) = none

namespace Apart

variable {g other : Graph} (hapart : Apart g other) (hg : Coherent g) (hother : Coherent other)

include hapart hg hother

/-- Nothing below the root meets anything. -/
theorem site_eq_none {c d : DeclId} (howner : other.owner? d = some c) :
    g.site other d = none := by
  -- By induction on the slot: the owner of a declaration is older, and it is the root or meets
  -- nothing.
  induction hindex : d.index using Nat.strongRecOn generalizing c d with
  | ind index ih =>
      rw [Option.eq_none_iff_forall_ne_some]
      intro e hsite
      obtain ⟨rfl, -⟩ | ⟨c', above, key, howner', habove, hmerged, heOwner, heKey⟩ :=
        site_cases hg hother hsite
      · rw [hother.owner?_root] at howner
        contradiction
      · obtain rfl := Option.some.inj (howner.symm.trans howner')
        by_cases hroot : c = root
        · subst hroot
          rw [site_root] at habove
          obtain rfl := Option.some.inj habove
          obtain ⟨name, hkey, hnone⟩ := hapart.package howner
          rw [mergedKey?_of_owner? howner hkey, Name.merged_package] at hmerged
          obtain rfl := Option.some.inj hmerged
          rw [hg.lookup_eq_some.mpr ⟨heOwner, heKey⟩] at hnone
          contradiction
        · obtain hisRoot | ⟨b, hcOwner⟩ :=
            hother.eq_root_or_owned (hother.isSome_key?_of_owner? howner)
          · exact hroot hisRoot
          · have hlt := hother.owner_lt howner
            rw [ih c.index (by omega) hcOwner rfl] at habove
            contradiction

/-- No name is shifted. -/
theorem shifted?_eq_none {c d : DeclId} {key : Key} (howner : other.owner? d = some c)
    (hkey : other.key? d = some key) : key.2.shifted? (g.offset other c) key.1 = none := by
  rw [Option.eq_none_iff_forall_ne_some]
  intro name hshifted
  obtain ⟨hoffset, hkind, -⟩ := Name.shifted?_eq_some_iff.mp hshifted
  obtain rfl | ⟨b, hcOwner⟩ := hother.eq_root_or_owned (hother.isSome_key?_of_owner? howner)
  · obtain ⟨name, hdKey, -⟩ := hapart.package howner
    obtain rfl := Option.some.inj (hkey.symm.trans hdKey)
    contradiction
  · rw [offset, hapart.site_eq_none hg hother hcOwner] at hoffset
    contradiction

/-- The members of a container go in under different keys. -/
theorem keysApart : KeysApart g other := by
  intro container a b key ha hb haKey hbKey
  have hkept : ∀ {d}, other.owner? d = some container → g.mergedKey? other d = other.key? d := by
    intro d howner
    cases hkey : other.key? d with
    | none => rw [mergedKey?, hkey, Option.map_none]
    | some key =>
        rw [mergedKey?_of_owner? howner hkey, Name.merged,
          hapart.shifted?_eq_none hg hother howner hkey, Option.getD_none]
  rw [hkept ha] at haKey
  rw [hkept hb] at hbKey
  exact hother.eq_of_key?_eq ha hb haKey hbKey

/-- Nothing is renamed. -/
theorem planned_eq_nil (forest : Forest) : g.planned other forest = [] := by
  rw [planned, List.filterMap_eq_nil_iff]
  intro id hid
  unfold renaming?
  cases howner : other.owner? id with
  | none => rfl
  | some c =>
      cases hkey : other.key? id with
      | none => rfl
      | some key =>
          rw [Option.bind_some, Option.bind_some, hapart.shifted?_eq_none hg hother howner hkey,
            Option.map_none]

end Apart

/-! ## Merges -/

namespace Merging

variable {g other merged : Graph} {forest : Forest} {log : List Arrival}
  (hm : Merging g other merged forest log) (hapart : Apart g other)

include hm hapart

/-- What is below the root gets a slot of its own. -/
theorem size_le_of_apart {c d : DeclId} (howner : other.owner? d = some c)
    (hd : (other.key? d).isSome) : g.size ≤ (imageIn log d).index := by
  obtain ⟨hsite, -⟩ | ⟨-, hle⟩ := hm.image_cases hd
  · rw [hapart.site_eq_none hm.coherent hm.other_coherent howner] at hsite
    contradiction
  · exact hle

/-- The root stays what it was. -/
theorem header?_root_of_apart : merged.header? root = g.header? root := by
  have hkeysApart : KeysApart g other := hapart.keysApart hm.coherent hm.other_coherent
  obtain ⟨decl, hdecl⟩ := exists_get? (index_lt_of_key? hm.other_coherent.key?_root)
  obtain ⟨old, hold⟩ := exists_get? (index_lt_of_key? hm.coherent.key?_root)
  have hdeclKey : decl.key? = some (.package, Name.empty) := by
    rw [← hm.other_coherent.key?_root, Graph.key?, hdecl, Option.bind_some]
  obtain ⟨key, fresh, -, hfresh, hheader⟩ :=
    hm.header?_image hkeysApart hdecl (Option.isSome_of_eq_some hdeclKey)
  rw [hm.image_root] at hfresh hheader
  have hjoined : fresh = false := by
    rw [← Bool.not_eq_true, hfresh, Nat.not_le]
    exact index_lt_of_key? hm.coherent.key?_root
  have hissued := hapart.issued
  rw [issued, hdecl, Option.map_some, Option.getD_some] at hissued
  rw [hheader, hjoined, hapart.planned_eq_nil hm.coherent hm.other_coherent,
    Renamings.rename_nil]
  cases decl <;> simp [Decl.key?] at hdeclKey
  next p =>
    have habsorb : (Decl.package p).absorb false = id :=
      funext fun _ => Decl.absorb_eq_self hissued (by simp)
    simp [habsorb]

/-- The packages of the other root come after those that are there. -/
theorem memberIds_root_of_apart : merged.memberIds root =
    g.memberIds root ++ (other.memberIds root).map (imageIn log) := by
  have hmembers := hm.memberIds_image (hapart.keysApart hm.coherent hm.other_coherent)
    (Option.isSome_of_eq_some hm.other_coherent.key?_root)
  have hall : newMembers g other (g.planned other forest) root root = other.memberIds root := by
    rw [newMembers, List.filter_eq_self]
    intro id hid
    have howner := hm.other_coherent.mem_memberIds.mp hid
    obtain ⟨name, hkey, hnone⟩ := hapart.package howner
    obtain ⟨decl, hdecl, hdeclKey⟩ := Option.bind_eq_some_iff.mp hkey
    rw [hdecl, Option.any_some, hapart.planned_eq_nil hm.coherent hm.other_coherent,
      Renamings.rename_nil]
    exact (lacks_container_iff hm.coherent hdeclKey).mpr hnone
  rwa [hm.image_root, hall] at hmembers

/-- What is below the root is copied with its members. -/
theorem copied_of_apart {c d : DeclId} (howner : other.owner? d = some c) :
    merged.header? (imageIn log d) = (other.header? d).map Decl.distinctParents ∧
      merged.memberIds (imageIn log d) = (other.memberIds d).map (imageIn log) := by
  have hkeysApart : KeysApart g other := hapart.keysApart hm.coherent hm.other_coherent
  have hrenamed : ((other.get? d).map fun decl =>
      ((g.planned other forest).rename d decl).header.distinctParents) =
        (other.header? d).map Decl.distinctParents := by
    rw [hapart.planned_eq_nil hm.coherent hm.other_coherent, header?, Option.map_map]
    congr 1
    funext decl
    rw [Renamings.rename_nil]
    rfl
  cases hkey : other.key? d with
  | some key =>
      have hd : (other.key? d).isSome := Option.isSome_of_eq_some hkey
      have hnew := hm.size_le_of_apart hapart howner hd
      exact ⟨(hm.header?_of_new hkeysApart hd hnew).trans hrenamed,
        hm.memberIds_of_bare hkeysApart hd (memberIds_of_size_le hnew)⟩
  | none =>
      -- The root has packages only, so this is in a container that gets a slot of its own.
      have hc := hm.other_coherent.isSome_key?_of_owner? howner
      obtain rfl | ⟨b, hcOwner⟩ := hm.other_coherent.eq_root_or_owned hc
      · obtain ⟨name, hpackage, -⟩ := hapart.package howner
        rw [hkey] at hpackage
        contradiction
      · have hheader := (hm.copied_of_bare hkeysApart
          (memberIds_of_size_le (hm.size_le_of_apart hapart hcOwner hc)) howner).2.2
        have himage : merged.key? (imageIn log d) = none := by
          rw [key?_eq_header?, hheader, hrenamed, ← hkey, key?_eq_header?]
          cases other.header? d <;> simp
        refine ⟨hheader.trans hrenamed, ?_⟩
        rw [memberIds_of_key?_eq_none hkey, memberIds_of_key?_eq_none himage, List.map_nil]

/-- A merge puts the incoming graph beside what is there. -/
theorem beside : Beside Decl.distinctParents g other merged (imageIn log) where
  apart := by
    intro key hkey
    obtain ⟨id, hid⟩ := Option.isSome_iff_exists.mp hkey
    obtain ⟨howner, hidKey⟩ := hm.other_coherent.lookup_eq_some.mp hid
    obtain ⟨name, hpackage, hnone⟩ := hapart.package howner
    rwa [Option.some.inj (hidKey.symm.trans hpackage)]
  header_root := hm.header?_root_of_apart hapart
  members_root := hm.memberIds_root_of_apart hapart
  old := by
    intro id c howner
    have hlt := hm.coherent.index_lt_of_owner? howner
    have hnever : ∀ d, (other.key? d).isSome → imageIn log d ≠ id := by
      rintro d hd rfl
      obtain rfl | ⟨b, hdOwner⟩ := hm.other_coherent.eq_root_or_owned hd
      · rw [hm.image_root, hm.coherent.owner?_root] at howner
        contradiction
      · have hle := hm.size_le_of_apart hapart hdOwner hd
        omega
    constructor
    · exact hm.logged.header?_old hm.coherent hlt fun a ha =>
        hm.target_ne_of_not_image hlt hnever ha
    · rw [hm.logged.memberIds hm.coherent, hm.filterMap_enlisted?_of_not_image hnever,
        List.append_nil]
  new := hm.copied_of_apart hapart

end Merging

end Graph
end DeclGraph

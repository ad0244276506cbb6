import Mathlib.Data.Set.Basic
import DeclGraph.Proofs.ApartMerges
import DeclGraph.Proofs.Outlines
import DeclGraph.Proofs.Regrouping
import DeclGraph.Proofs.Scripts

/-!
# Scripts one after the other

Scripts that make different packages can be run one after the other on one graph, or
each by itself, with the graphs that they build put together afterwards.  Both ways
lead to the same declarations under other numbers, except that putting graphs
together leaves out a parent that a class mentions again.

Main results:

- Theorem `Graph.Agreeing.step`: one more script keeps the two graphs in agreement.
- Theorem `Graph.Agreeing.run`: so do all scripts, by induction on them.
- Theorem `Graph.Agreeing.exists_parts`: scripts that run one after the other run each by
  itself.
- Theorem `ofParts_agrees_runAll`: what the scripts build together, they build one after
  the other.
-/

namespace DeclGraph

open DeclGraph.Graph

/-- Two scripts make different packages. -/
def Script.Apart (script other : Script) : Prop :=
  ∀ name ∈ script.names, name ∉ other.names

/-- Run scripts one after the other, beginning with the root alone. -/
def runAll (scripts : List Script) : Option Graph :=
  scripts.foldlM (fun g script => script.runOn g) Graph.empty

/-- A class that mentions no parent twice has the line that it had. -/
theorem Decl.text_distinctParents (decl : Decl) : decl.distinctParents.text = decl.text := by
  cases decl <;> rfl

theorem Decl.issued_distinctParents (decl : Decl) : decl.distinctParents.issued = decl.issued := by
  cases decl <;> rfl

namespace Graph

/-- What has packages only, on top of what has packages only, makes a graph that has packages
only. -/
theorem Alongside.packaged {names others : Set Name} {base g h : Graph}
    (halong : Alongside base g h) (hbase : Coherent base) (hg : Coherent g)
    (hbasePackaged : Packaged names base) (hpackaged : Packaged others g) :
    Packaged (names ∪ others) h where
  issued := by rw [issued_eq_header?, halong.header_root, ← issued_eq_header?, hbasePackaged.issued]
  package := by
    intro id hid
    rw [halong.members_root, List.mem_append, List.mem_map] at hid
    obtain hold | ⟨d, hd, rfl⟩ := hid
    · obtain ⟨name, hname, hkey⟩ := hbasePackaged.package id hold
      have hne := hbase.ne_root_of_owner? (hbase.mem_memberIds.mp hold)
      refine ⟨name, Or.inl hname, ?_⟩
      rw [Graph.key?, halong.old hne (index_lt_of_key? hkey), ← Graph.key?, hkey]
    · obtain ⟨name, hname, hkey⟩ := hpackaged.package d hd
      have hne := hg.ne_root_of_owner? (hg.mem_memberIds.mp hd)
      refine ⟨name, Or.inr hname, ?_⟩
      rw [halong.key?_new hne (index_lt_of_key? hkey), hkey]

/-- The root alone has a profile at the empty address only. -/
theorem profile_empty (address : List Key) : Graph.empty.profile address =
    (Graph.empty.profile address).map (Profile.through Decl.distinctParents) := by
  cases address with
  | nil => rfl
  | cons key rest =>
      rw [profile_of_locate_eq_none (locate_empty_of_ne_nil (List.cons_ne_nil key rest)),
        Option.map_none]

/-- What was built by running scripts one after the other and what was put together from the graphs
that they built agree: at every address there is the same. -/
structure Agreeing (names : Set Name) (single merged : Graph) : Prop where
  singleBuilt : ∃ record, Built anyName record single
  mergedBuilt : ∃ record, Built anyName record merged
  packaged : Packaged names single
  size : merged.size ≤ single.size
  profiles : ∀ address, merged.profile address =
    (single.profile address).map (Profile.through Decl.distinctParents)

namespace Agreeing

/-- The root alone agrees with itself. -/
theorem empty : Agreeing ∅ Graph.empty Graph.empty where
  singleBuilt := ⟨_, .new⟩
  mergedBuilt := ⟨_, .new⟩
  packaged := Packaged.empty ∅
  size := Nat.le_refl _
  profiles := profile_empty

variable {names : Set Name} {single merged : Graph}

/-- Scripts that make none of the packages, and none of those of one more script, make none of
either. -/
private theorem names_apart {script : Script} {scripts : List Script}
    (hothers : ∀ other ∈ scripts, ∀ name ∈ names, name ∉ other.names)
    (hlater : ∀ other ∈ scripts, script.Apart other) :
    ∀ other ∈ scripts, ∀ name ∈ names ∪ script.names, name ∉ other.names := by
  rintro other hother name (hname | hname)
  · exact hothers other hother name hname
  · exact hlater other hother name hname

/-- The root has no package of a script that makes others. -/
theorem free (h : Agreeing names single merged) (hsingle : Coherent single) {others : Set Name}
    (hnew : ∀ name ∈ names, name ∉ others) :
    ∀ name ∈ others, single.lookup root (.package, name) = none := by
  intro name hname
  exact h.packaged.lookup_eq_none hsingle fun hheld => hnew name hheld hname

/-- One more script keeps the two graphs in agreement. -/
theorem step (h : Agreeing names single merged) {script : Script} {part : Graph}
    (hnew : ∀ name ∈ names, name ∉ script.names) (hrun : script.runOn Graph.empty = some part)
    (hfits : part.size + (single.size - 1) < UInt32.size) :
    ∃ single' merged', script.runOn single = some single' ∧
      Graph.merge part merged = .ok () merged' ∧ single'.size = part.size + (single.size - 1) ∧
      Agreeing (names ∪ script.names) single' merged' := by
  obtain ⟨singleRecord, hsingle⟩ := h.singleBuilt
  obtain ⟨mergedRecord, hmerged⟩ := h.mergedBuilt
  have hfree := h.free hsingle.coherent hnew
  obtain ⟨single', hrunSingle, ⟨record', hsingle'⟩, ⟨partRecord, hpart⟩, halong, hpackaged⟩ :=
    Script.exists_runOn hsingle hfree hrun hfits
  have hapart : Apart merged part :=
    { issued := hpackaged.issued
      package := by
        intro id howner
        obtain ⟨name, hname, hkey⟩ := hpackaged.package id (hpart.coherent.mem_memberIds.mpr howner)
        have hkeys := isSome_lookup_root_of_profiles h.profiles (.package, name)
        rw [hfree name hname, Option.isSome_none] at hkeys
        exact ⟨name, hkey, Option.isNone_iff_eq_none.mp (Option.isSome_eq_false_iff.mp hkeys)⟩ }
  have hfilled := size_merge_lt hmerged.coherent hpart.coherent
  have hsingleSize := halong.size
  have hmergedSize := h.size
  have hpos := index_lt_of_key? hsingle.coherent.key?_root
  have hlt : ((Graph.merge part).final merged).size < UInt32.size := by omega
  obtain ⟨merged', forest, log, hmerge, hm⟩ := hmerged.exists_merging hpart hlt
  rw [Build.final_of_ok hmerge] at hfilled hlt
  have hmerged' := hmerged.merge hpart hmerge hlt
  have hbeside := halong.beside hsingle.coherent hpart.coherent
    (hpackaged.apart hpart.coherent hfree)
  refine ⟨single', merged', hrunSingle, hmerge, hsingleSize, ?_⟩
  exact {
    singleBuilt := ⟨record', hsingle'⟩
    mergedBuilt := ⟨mergedRecord, hmerged'⟩
    packaged := halong.packaged hsingle.coherent hpart.coherent h.packaged hpackaged
    size := by omega
    profiles := hbeside.profiles (hm.beside hapart) Decl.transparent_distinctParents hpart.coherent
      hsingle.coherent hsingle'.coherent hmerged.coherent hmerged'.coherent h.profiles }

/-- Scripts one after the other keep the two graphs in agreement. -/
theorem run {scripts : List Script} {parts : List Graph}
    (hparts : List.Forall₂ (fun script part => script.runOn Graph.empty = some part) scripts parts)
    (h : Agreeing names single merged)
    (hnew : ∀ script ∈ scripts, ∀ name ∈ names, name ∉ script.names)
    (hpairwise : scripts.Pairwise Script.Apart)
    (hsize : single.size + (parts.map fun part => part.size - 1).sum < UInt32.size) :
    ∃ names' single' merged',
      scripts.foldlM (fun g script => script.runOn g) single = some single' ∧
      mergeAll parts merged = .ok () merged' ∧ Agreeing names' single' merged' := by
  induction hparts generalizing names single merged with
  | nil => exact ⟨names, single, merged, rfl, rfl, h⟩
  | @cons script part scripts parts hrun hparts ih =>
      rw [List.map_cons, List.sum_cons] at hsize
      obtain ⟨hfirst, hothers⟩ := List.forall_mem_cons.mp hnew
      obtain ⟨hlater, hpairwise⟩ := List.pairwise_cons.mp hpairwise
      obtain ⟨record, hsingle⟩ := h.singleBuilt
      have hpos := index_lt_of_key? hsingle.coherent.key?_root
      obtain ⟨next, mergedNext, hnext, hmerge, hnextSize, hstep⟩ := h.step hfirst hrun (by omega)
      obtain ⟨names', single', merged', hsingle', hmerged', hdone⟩ :=
        ih hstep (names_apart hothers hlater) hpairwise (by omega)
      refine ⟨names', single', merged', ?_, ?_, hdone⟩
      · rw [List.foldlM_cons, hnext]
        exact hsingle'
      · rw [mergeAll_cons, Build.bind_of_ok hmerge, hmerged']

/-- Scripts that run one after the other run each by itself, and what they build has slots. -/
theorem exists_parts {scripts : List Script} (h : Agreeing names single merged)
    (hnew : ∀ script ∈ scripts, ∀ name ∈ names, name ∉ script.names)
    (hpairwise : scripts.Pairwise Script.Apart) {single' : Graph}
    (hrun : scripts.foldlM (fun g script => script.runOn g) single = some single') :
    ∃ parts, List.Forall₂ (fun script part => script.runOn Graph.empty = some part) scripts parts ∧
      single.size + (parts.map fun part => part.size - 1).sum < UInt32.size := by
  induction scripts generalizing names single merged with
  | nil =>
      obtain ⟨_, hsingle⟩ := h.singleBuilt
      exact ⟨[], .nil, hsingle.coherent.size_lt⟩
  | cons script scripts ih =>
      obtain ⟨hfirst, hothers⟩ := List.forall_mem_cons.mp hnew
      obtain ⟨hlater, hpairwise⟩ := List.pairwise_cons.mp hpairwise
      rw [List.foldlM_cons] at hrun
      obtain ⟨next, hnext, hrest⟩ := Option.bind_eq_some_iff.mp hrun
      obtain ⟨_, hsingle⟩ := h.singleBuilt
      obtain ⟨part, hpart, hfits⟩ :=
        Script.exists_of_runOn hsingle (h.free hsingle.coherent hfirst) hnext
      obtain ⟨next', mergedNext, hnext', -, hsize, hstep⟩ := h.step hfirst hpart hfits
      obtain rfl := Option.some.inj (hnext.symm.trans hnext')
      obtain ⟨parts, hparts, hsum⟩ := ih hstep (names_apart hothers hlater) hpairwise hrest
      refine ⟨part :: parts, .cons hpart hparts, ?_⟩
      have hpos := index_lt_of_key? hsingle.coherent.key?_root
      have hpartPos : 0 < part.size := Script.size_le_of_runOn hpart
      rw [List.map_cons, List.sum_cons]
      omega

end Agreeing

end Graph

/-- Each script builds its part by itself, and there are slots for all that is below the roots of
the parts. -/
structure BuiltApart (scripts : List Script) (parts : List Graph) : Prop where
  runs : List.Forall₂ (fun script part => script.runOn Graph.empty = some part) scripts parts
  size : 1 + (parts.map fun part => part.size - 1).sum < UInt32.size

/-- Two graphs show the same, and `image` tells what in the second one stands where something stands
in the first one. -/
structure ShowsSame (single merged : Graph) (image : DeclId → DeclId) : Prop where
  /-- The outlines of the roots are the same. -/
  outline : ∃ text, merged.outline root = .ok text ∧ single.outline root = .ok text
  /-- The same addresses lead to containers. -/
  locate : ∀ address, merged.locate address = (single.locate address).map image
  /-- At every address as many names were issued. -/
  issued : ∀ {address id}, single.locate address = some id →
    merged.issued (image id) = single.issued id
  /-- Companions correspond to each other. -/
  companion : ∀ {address id}, single.locate address = some id →
    merged.companion? (image id) = (single.companion? id).map image
  /-- All else is the same, except that the second graph has no parent twice. -/
  renumbering : Renumbering Decl.distinctParents single merged image

/-- Graphs in agreement show the same. -/
theorem Graph.Agreeing.showsSame {names : Set Name} {single merged : Graph}
    (h : Agreeing names single merged) : ShowsSame single merged (counterpart single merged) := by
  obtain ⟨_, hsingle⟩ := h.singleBuilt
  obtain ⟨_, hmerged⟩ := h.mergedBuilt
  obtain ⟨hrenumbering, hlocate⟩ := renumbering_of_profiles Decl.transparent_distinctParents
    hsingle.coherent hmerged.coherent h.profiles
  have hattached : ∀ {address id}, single.locate address = some id → single.isAttached id := by
    intro address id hid
    obtain ⟨hidKey, -⟩ := hsingle.coherent.locate_eq_some_iff.mp hid
    exact isAttached_iff_owned.mpr (hsingle.coherent.eq_root_or_owned hidKey)
  exact {
    outline := by
      obtain ⟨text, hsingleText, hmergedText⟩ := hrenumbering.outline_root
        Decl.text_distinctParents hsingle.coherent hmerged.coherent
      exact ⟨text, hmergedText, hsingleText⟩
    locate := hlocate
    issued := by
      intro address id hid
      rw [issued_eq_header?, hrenumbering.header (hattached hid), issued_eq_header?,
        Option.map_map]
      congr 2
      funext decl
      exact decl.issued_distinctParents
    companion := fun hid => hrenumbering.companion (hattached hid)
    renumbering := hrenumbering }

/-- Scripts for different packages run one after the other exactly if each of them runs by itself
and there are slots for all that they build.  Then the parts that they build make a graph together
that shows the same as the one that they make one after the other. -/
theorem ofParts_agrees_runAll {scripts : List Script} (hapart : scripts.Pairwise Script.Apart) :
    ((runAll scripts).isSome ↔ ∃ parts, BuiltApart scripts parts) ∧
    ∀ parts, BuiltApart scripts parts → ∃ merged single image, Graph.ofParts parts = .ok merged ∧
      runAll scripts = some single ∧ ShowsSame single merged image := by
  have hfresh : ∀ script ∈ scripts, ∀ name ∈ (∅ : Set Name), name ∉ script.names :=
    fun _ _ _ hname => absurd hname (Set.notMem_empty _)
  have hagree : ∀ parts, BuiltApart scripts parts → ∃ merged single image,
      Graph.ofParts parts = .ok merged ∧ runAll scripts = some single ∧
        ShowsSame single merged image := by
    intro parts hparts
    obtain ⟨names, single, merged, hsingle, hmerged, h⟩ :=
      Agreeing.empty.run hparts.runs hfresh hapart hparts.size
    refine ⟨merged, single, _, ?_, hsingle, h.showsSame⟩
    rw [ofParts, hmerged]
  refine ⟨⟨?_, ?_⟩, hagree⟩
  · intro hruns
    obtain ⟨single, hsingle⟩ := Option.isSome_iff_exists.mp hruns
    obtain ⟨parts, hparts, hsize⟩ := Agreeing.empty.exists_parts hfresh hapart hsingle
    exact ⟨parts, hparts, hsize⟩
  · rintro ⟨parts, hparts⟩
    obtain ⟨-, single, -, -, hsingle, -⟩ := hagree parts hparts
    exact Option.isSome_of_eq_some hsingle

/-- A script that makes a package with a class and its companion. The class has an anonymous class
in it, loses a method that is there twice, and mentions a parent twice. -/
def companionScript (name : Name) : Script where
  names := {name}
  calls := [.package .root name, .klass (.answer 0) ⟨"C"⟩, .object (.answer 0) ⟨"C"⟩,
    .issueName (.answer 1), .klass (.answer 1) ⟨"anon$1"⟩, .method (.answer 1) ⟨"m"⟩,
    .method (.answer 1) ⟨"m"⟩, .dropDuplicate (.answer 1) (.answer 6),
    .editClass (.answer 1) fun k => { k with parents := [TypeExpr.any, TypeExpr.any] }]
  below := by
    simp only [List.forall_mem_cons, List.not_mem_nil, false_imp_iff, implies_true, and_true]
    refine ⟨fun _ => rfl, nofun, nofun, nofun, nofun, nofun, nofun, nofun, nofun, ?_⟩
    exact ⟨fun _ => ⟨rfl, rfl, rfl⟩, fun _ _ _ => rfl⟩

/-- Two such scripts, for different packages. The class of the second one has issued a name in both
graphs, and has a companion in both. -/
theorem ofParts_agrees_runAll_of_companions :
    ∃ parts merged single image,
      BuiltApart [companionScript ⟨"alpha"⟩, companionScript ⟨"beta"⟩] parts ∧
      Graph.ofParts parts = .ok merged ∧
      runAll [companionScript ⟨"alpha"⟩, companionScript ⟨"beta"⟩] = some single ∧
      ShowsSame single merged image ∧
      ∃ id, single.locate [(.package, ⟨"beta"⟩), (.klass, ⟨"C"⟩)] = some id ∧
        merged.issued (image id) = 1 ∧ (merged.companion? (image id)).isSome := by
  have hapart : [companionScript ⟨"alpha"⟩, companionScript ⟨"beta"⟩].Pairwise Script.Apart := by
    simp [companionScript, Script.Apart]
  have hclass : (runAll [companionScript ⟨"alpha"⟩, companionScript ⟨"beta"⟩]).any fun single =>
      (single.locate [(.package, ⟨"beta"⟩), (.klass, ⟨"C"⟩)]).any fun id =>
        single.issued id = 1 && (single.companion? id).isSome := by
    decide +kernel
  obtain ⟨parts, hparts⟩ := (ofParts_agrees_runAll hapart).1.mp (by decide +kernel)
  obtain ⟨merged, single, image, hmerged, hsingle, hsame⟩ :=
    (ofParts_agrees_runAll hapart).2 parts hparts
  rw [hsingle, Option.any_some, Option.any_eq_true] at hclass
  obtain ⟨id, hid, hclass⟩ := hclass
  rw [Bool.and_eq_true, decide_eq_true_eq] at hclass
  refine ⟨parts, merged, single, image, hparts, hmerged, hsingle, hsame, id, hid, ?_, ?_⟩
  · rw [hsame.issued hid, hclass.1]
  · rw [hsame.companion hid, Option.isSome_map, hclass.2]

end DeclGraph

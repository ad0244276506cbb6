import DeclGraph.Proofs.Composition

/-!
# Merging in groups

Graphs whose references are plain can be merged in any grouping.  A merge joins
contents, joining contents is associative, and graphs with the same contents differ
in the numbers of their slots only.  So it does not matter whether parts are brought
into a graph one by one, or are put together first and then brought in as one.

Main results:

- Theorem `Graph.Part.exists_merged`: a merge of parts is a part, with the joined
  contents.
- Theorem `Graph.Part.exists_mergedAll`: the same for a list of parts, by induction on
  the list.
- Theorem `merge_regrouped`: parts may be merged in any grouping.
-/

namespace DeclGraph

instance : Std.Associative Contents.join :=
  ⟨Contents.join_assoc⟩

namespace Graph

/-! ## The empty graph -/

theorem locate_empty_of_ne_nil {address : List Key} (h : address ≠ []) :
    Graph.empty.locate address = none := by
  obtain rfl | ⟨above, key, rfl⟩ := address.eq_nil_or_concat
  · contradiction
  · rw [List.concat_eq_append, locate_append_singleton, Option.bind_eq_none_iff]
    intro container _
    rw [Option.eq_none_iff_forall_ne_some]
    intro id hfound
    have hmember := Coherent.empty.mem_memberIds.mpr (Coherent.empty.lookup_eq_some.mp hfound).1
    rw [memberIds_empty] at hmember
    contradiction

/-- The root alone holds nothing. -/
theorem contents_empty : Graph.empty.contents = fun _ => {} := by
  funext place
  by_cases hreaches : Graph.empty.Reaches place
  · rw [contents_of_reaches hreaches]
    by_cases haddress : place.address = []
    · rw [haddress, locate_nil, Option.elim_some]
      rfl
    · rw [locate_empty_of_ne_nil haddress, Option.elim_none]
  · exact contents_of_not_reaches hreaches

/-- Joining nothing to the contents of a graph changes nothing. -/
theorem contents_join_nothing (g : Graph) : g.contents.join (fun _ => {}) = g.contents := by
  funext place
  cases place with
  | plain address => exact Content.join_nothing _
  | behind address kind number below =>
      by_cases hold : number ≤ (g.contents (.plain address)).issued
      · exact Contents.join_behind_of_le hold
      · rw [Contents.join_behind_of_lt (Nat.lt_of_not_le hold), Content.join_nothing,
          contents_of_not_reaches]
        rwa [reaches_behind_iff, ← issued_contents_plain]

/-! ## Parts -/

/-- A graph that can be put together with others in any grouping: it was built, under issued names,
and its references are plain. -/
structure Part (g : Graph) : Prop where
  built : ∃ record, Built issuedName record g
  plain : g.PlainReferences

theorem Part.empty : Part Graph.empty where
  built := ⟨_, .new⟩
  plain := by decide

/-- Merging a part into a part goes through and makes a part, with the joined contents. -/
theorem Part.exists_merged {g other : Graph} (hg : Part g) (hother : Part other)
    (hsize : ((Graph.merge other).final g).size < UInt32.size)
    (hcounts : ∀ address, PlainAddress address →
      g.countAt address + other.countAt address < UInt32.size) :
    ∃ merged, Graph.merge other g = .ok () merged ∧ Part merged ∧
      merged.contents = g.contents.join other.contents := by
  obtain ⟨record, hbuilt⟩ := hg.built
  obtain ⟨otherRecord, hotherBuilt⟩ := hother.built
  obtain ⟨merged, forest, log, hmerge, hm⟩ := hbuilt.exists_merging hotherBuilt hsize
  have hcounted : CountedMerging g other merged forest log :=
    { hm with
      names := hotherBuilt.namesIssued
      counts := countsFit_of_countAt hbuilt.coherent hotherBuilt.coherent hbuilt.namesIssued
        hotherBuilt.namesIssued hcounts }
  rw [Build.final_of_ok hmerge] at hsize
  exact ⟨merged, hmerge,
    { built := ⟨record, hbuilt.merge hotherBuilt hmerge hsize⟩
      plain := hm.plainReferences hg.plain hother.plain },
    hcounted.contents_merged hbuilt.namesIssued hother.plain hcounts⟩

/-- Where contents are joined, counts of issued names add up. -/
theorem countAt_of_contents_eq_join {g other merged : Graph}
    (h : merged.contents = g.contents.join other.contents) {address : List Key}
    (haddress : PlainAddress address) :
    merged.countAt address = g.countAt address + other.countAt address := by
  have hissued := congrArg Content.issued (congrFun h (.plain ⟨address, haddress⟩))
  rw [issued_contents_plain] at hissued
  rw [hissued, Contents.join, Content.join, issued_contents_plain, issued_contents_plain]

/-- Merging parts one by one goes through and makes a part, with the joined contents. -/
theorem Part.exists_mergedAll {g : Graph} {parts : List Graph} (hg : Part g)
    (hparts : ∀ part ∈ parts, Part part) (hsize : ((mergeAll parts).final g).size < UInt32.size)
    (hcounts : ∀ address, PlainAddress address →
      g.countAt address + totalAt parts address < UInt32.size) :
    ∃ merged, mergeAll parts g = .ok () merged ∧ Part merged ∧
      merged.contents = (parts.map Graph.contents).foldl Contents.join g.contents ∧
      ∀ address, PlainAddress address →
        merged.countAt address = g.countAt address + totalAt parts address := by
  induction parts generalizing g with
  | nil => exact ⟨g, rfl, hg, rfl, fun _ _ => rfl⟩
  | cons part parts ih =>
      obtain ⟨hpart, hparts⟩ := List.forall_mem_cons.mp hparts
      have hfirst : ((Graph.merge part).final g).size < UInt32.size :=
        Nat.lt_of_le_of_lt (Build.size_final_le_bind (fun _ => growing_mergeAll parts) g) hsize
      have hfit : ∀ address, PlainAddress address →
          g.countAt address + part.countAt address < UInt32.size := by
        intro address haddress
        have hbound := hcounts address haddress
        rw [totalAt_cons] at hbound
        omega
      obtain ⟨next, hmerge, hnext, hcontents⟩ := hg.exists_merged hpart hfirst hfit
      have hcountNext : ∀ address, PlainAddress address → next.countAt address =
          g.countAt address + part.countAt address :=
        fun _ => countAt_of_contents_eq_join hcontents
      have hrest : ∀ address, PlainAddress address →
          next.countAt address + totalAt parts address < UInt32.size := by
        intro address haddress
        have hbound := hcounts address haddress
        rw [totalAt_cons] at hbound
        rw [hcountNext address haddress]
        omega
      rw [mergeAll_cons, Build.final_bind_of_ok hmerge] at hsize
      obtain ⟨merged, hmergeAll, hmerged, hjoined, hcountAll⟩ := ih hnext hparts hsize hrest
      refine ⟨merged, ?_, hmerged, ?_, ?_⟩
      · rw [mergeAll_cons, Build.bind_of_ok hmerge, hmergeAll]
      · rw [hjoined, hcontents, List.map_cons, List.foldl_cons]
      · intro address haddress
        rw [hcountAll address haddress, hcountNext address haddress, totalAt_cons, Nat.add_assoc]

/-- Parts with the same contents are renumberings of each other. -/
theorem Part.renumbering {g h : Graph} (hg : Part g) (hh : Part h)
    (hsame : g.contents = h.contents) : Renumbering id g h (counterpart g h) := by
  obtain ⟨_, hbuilt⟩ := hg.built
  obtain ⟨_, hother⟩ := hh.built
  exact renumbering_of_contents_eq hbuilt.coherent hbuilt.namesIssued hother.coherent
    hother.namesIssued hsame

theorem mergeAll_append (parts more : List Graph) :
    mergeAll (parts ++ more) = (do mergeAll parts; mergeAll more) := by
  induction parts with
  | nil => rw [List.nil_append, mergeAll_nil, pure_bind]
  | cons part parts ih => rw [List.cons_append, mergeAll_cons, mergeAll_cons, ih, bind_assoc]

/-- Parts whose counts of issued names fit when they are taken together. -/
structure Mergeable (parts : List Graph) : Prop where
  part : ∀ g ∈ parts, Part g
  counts : ∀ address, PlainAddress address → totalAt parts address < UInt32.size

end Graph

open DeclGraph.Graph

/-! ## Groups of parts -/

/-- Merging one part after the other leads to the same as merging the second into the first. -/
theorem Graph.Mergeable.merge_assoc {a b c : Graph} (h : Mergeable [a, b, c])
    (hleft : ((Graph.merge c).final ((Graph.merge b).final a)).size < UInt32.size)
    (hinner : ((Graph.merge c).final b).size < UInt32.size)
    (hright : ((Graph.merge ((Graph.merge c).final b)).final a).size < UInt32.size) :
    ∃ front left back right image, Graph.merge b a = .ok () front ∧
      Graph.merge c front = .ok () left ∧ Graph.merge c b = .ok () back ∧
      Graph.merge back a = .ok () right ∧ Renumbering id left right image := by
  obtain ⟨ha, hbc⟩ := List.forall_mem_cons.mp h.part
  obtain ⟨hb, hc⟩ := List.forall_mem_cons.mp hbc
  have hc := List.forall_mem_singleton.mp hc
  have htotal : ∀ address, PlainAddress address →
      a.countAt address + (b.countAt address + c.countAt address) < UInt32.size := h.counts
  have hfront : ((Graph.merge b).final a).size < UInt32.size :=
    Nat.lt_of_le_of_lt (growing_merge c _) hleft
  obtain ⟨front, hmergeFront, hfrontPart, hfrontContents⟩ := ha.exists_merged hb hfront
    fun address haddress => by have hbound := htotal address haddress; omega
  obtain ⟨back, hmergeBack, hbackPart, hbackContents⟩ := hb.exists_merged hc hinner
    fun address haddress => by have hbound := htotal address haddress; omega
  rw [Build.final_of_ok hmergeFront] at hleft
  rw [Build.final_of_ok hmergeBack] at hright
  obtain ⟨left, hmergeLeft, hleftPart, hleftContents⟩ := hfrontPart.exists_merged hc hleft
    fun address haddress => by
      rw [countAt_of_contents_eq_join hfrontContents haddress, Nat.add_assoc]
      exact htotal address haddress
  obtain ⟨right, hmergeRight, hrightPart, hrightContents⟩ := ha.exists_merged hbackPart hright
    fun address haddress => by
      rw [countAt_of_contents_eq_join hbackContents haddress]
      exact htotal address haddress
  have hsame : left.contents = right.contents := by
    rw [hleftContents, hfrontContents, hrightContents, hbackContents, Contents.join_assoc]
  exact ⟨front, left, back, right, _, hmergeFront, hmergeLeft, hmergeBack, hmergeRight,
    hleftPart.renumbering hrightPart hsame⟩

/-- Putting parts together goes through, with the joined contents. -/
theorem Graph.Mergeable.exists_ofParts {parts : List Graph} (h : Mergeable parts)
    (hsize : ((mergeAll parts).final Graph.empty).size < UInt32.size) :
    ∃ g, mergeAll parts Graph.empty = .ok () g ∧ Graph.ofParts parts = .ok g ∧ Part g ∧
      g.contents = (parts.map Graph.contents).foldl Contents.join Graph.empty.contents ∧
      ∀ address, PlainAddress address → g.countAt address = totalAt parts address := by
  have hnothing : ∀ address, PlainAddress address → Graph.empty.countAt address = 0 := by
    intro address haddress
    rw [← issued_contents_plain Graph.empty ⟨address, haddress⟩, contents_empty]
  have hcounts : ∀ address, PlainAddress address →
      Graph.empty.countAt address + totalAt parts address < UInt32.size := by
    intro address haddress
    rw [hnothing address haddress, Nat.zero_add]
    exact h.counts address haddress
  obtain ⟨g, hmerge, hg, hcontents, hcount⟩ := Part.empty.exists_mergedAll h.part hsize hcounts
  refine ⟨g, hmerge, ?_, hg, hcontents, ?_⟩
  · rw [ofParts, hmerge]
  · intro address haddress
    rw [hcount address haddress, hnothing address haddress, Nat.zero_add]

/-- Putting all parts together leads to the same as merging what the later ones make into what the
earlier ones make. -/
theorem Graph.Mergeable.ofParts_append {parts more : List Graph} (h : Mergeable (parts ++ more))
    (hall : ((mergeAll (parts ++ more)).final Graph.empty).size < UInt32.size)
    (hback : ((mergeAll more).final Graph.empty).size < UInt32.size)
    (hjoined : ((Graph.merge ((mergeAll more).final Graph.empty)).final
      ((mergeAll parts).final Graph.empty)).size < UInt32.size) :
    ∃ all front back joined image, Graph.ofParts (parts ++ more) = .ok all ∧
      Graph.ofParts parts = .ok front ∧ Graph.ofParts more = .ok back ∧
      Graph.merge back front = .ok () joined ∧ Renumbering id all joined image := by
  obtain ⟨hparts, hmore⟩ := List.forall_mem_append.mp h.part
  have htotal : ∀ address, PlainAddress address →
      totalAt parts address + totalAt more address < UInt32.size := by
    intro address haddress
    rw [← totalAt_append]
    exact h.counts address haddress
  have hpartsMergeable : Mergeable parts :=
    { part := hparts
      counts := fun address haddress => by have hbound := htotal address haddress; omega }
  have hmoreMergeable : Mergeable more :=
    { part := hmore
      counts := fun address haddress => by have hbound := htotal address haddress; omega }
  have hfront : ((mergeAll parts).final Graph.empty).size < UInt32.size := by
    rw [mergeAll_append] at hall
    exact Nat.lt_of_le_of_lt (Build.size_final_le_bind (fun _ => growing_mergeAll more) _) hall
  obtain ⟨all, -, hallEq, hallPart, hallContents, -⟩ := h.exists_ofParts hall
  obtain ⟨front, hmergeFront, hfrontEq, hfrontPart, hfrontContents, hfrontCount⟩ :=
    hpartsMergeable.exists_ofParts hfront
  obtain ⟨back, hmergeBack, hbackEq, hbackPart, hbackContents, hbackCount⟩ :=
    hmoreMergeable.exists_ofParts hback
  rw [Build.final_of_ok hmergeFront, Build.final_of_ok hmergeBack] at hjoined
  obtain ⟨joined, hmergeJoined, hjoinedPart, hjoinedContents⟩ :=
    hfrontPart.exists_merged hbackPart hjoined fun address haddress => by
      rw [hfrontCount address haddress, hbackCount address haddress]
      exact htotal address haddress
  have hsame : all.contents = joined.contents :=
    calc all.contents
      _ = (more.map Graph.contents).foldl Contents.join front.contents := by
          rw [hallContents, List.map_append, List.foldl_append, ← hfrontContents]
      _ = (more.map Graph.contents).foldl Contents.join
            (front.contents.join Graph.empty.contents) := by
          rw [contents_empty, contents_join_nothing]
      _ = front.contents.join back.contents := by
          rw [List.foldl_assoc, ← hbackContents]
      _ = joined.contents := hjoinedContents.symm
  exact ⟨all, front, back, joined, _, hallEq, hfrontEq, hbackEq, hmergeJoined,
    hallPart.renumbering hjoinedPart hsame⟩

/-- Parts may be merged in any grouping. -/
theorem merge_regrouped :
    (∀ a b c : Graph, Mergeable [a, b, c] →
      ((Graph.merge c).final ((Graph.merge b).final a)).size < UInt32.size →
      ((Graph.merge c).final b).size < UInt32.size →
      ((Graph.merge ((Graph.merge c).final b)).final a).size < UInt32.size →
      ∃ front left back right image, Graph.merge b a = .ok () front ∧
        Graph.merge c front = .ok () left ∧ Graph.merge c b = .ok () back ∧
        Graph.merge back a = .ok () right ∧ Renumbering id left right image) ∧
    ∀ parts more : List Graph, Mergeable (parts ++ more) →
      ((mergeAll (parts ++ more)).final Graph.empty).size < UInt32.size →
      ((mergeAll more).final Graph.empty).size < UInt32.size →
      ((Graph.merge ((mergeAll more).final Graph.empty)).final
        ((mergeAll parts).final Graph.empty)).size < UInt32.size →
      ∃ all front back joined image, Graph.ofParts (parts ++ more) = .ok all ∧
        Graph.ofParts parts = .ok front ∧ Graph.ofParts more = .ok back ∧
        Graph.merge back front = .ok () joined ∧ Renumbering id all joined image := by
  constructor
  · intro a b c h hleft hinner hright
    exact h.merge_assoc hleft hinner hright
  · intro parts more h hall hback hjoined
    exact h.ofParts_append hall hback hjoined

/-- Three parts with an anonymous class each in the class `C`, of which the first two have a method
in common and the last two a parent. -/
theorem merge_regrouped_of_namesakes : ∃ a b c : Graph, Mergeable [a, b, c] ∧
    a.HoldsAnonymous [(.klass, ⟨"C"⟩)] .klass 1 ⟨1⟩ ⟨2⟩ ∧
    b.HoldsAnonymous [(.klass, ⟨"C"⟩)] .klass 1 ⟨1⟩ ⟨2⟩ ∧
    c.HoldsAnonymous [(.klass, ⟨"C"⟩)] .klass 1 ⟨1⟩ ⟨2⟩ ∧
    (∃ front left back right image, Graph.merge b a = .ok () front ∧
      Graph.merge c front = .ok () left ∧ Graph.merge c b = .ok () back ∧
      Graph.merge back a = .ok () right ∧ Renumbering id left right image) ∧
    ∃ all front back joined image, Graph.ofParts ([a] ++ [b, c]) = .ok all ∧
      Graph.ofParts [a] = .ok front ∧ Graph.ofParts [b, c] = .ok back ∧
      Graph.merge back front = .ok () joined ∧ Renumbering id all joined image := by
  have hplain : PlainAddress [(.klass, ⟨"C"⟩)] := plainAddress_singleton.mpr (by decide +kernel)
  have ha := built_played [.klass root ⟨"C"⟩, .issueName ⟨1⟩, .klass ⟨1⟩ ⟨"anon$1"⟩,
    .method ⟨1⟩ ⟨"m"⟩] rfl
  have hbMade := built_played [.klass root ⟨"C"⟩, .issueName ⟨1⟩, .klass ⟨1⟩ ⟨"anon$1"⟩,
    .method ⟨1⟩ ⟨"m"⟩, .field ⟨2⟩ ⟨"f"⟩] rfl
  have hcMade := built_played [.klass root ⟨"C"⟩, .issueName ⟨1⟩, .klass ⟨1⟩ ⟨"anon$1"⟩,
    .object root ⟨"C"⟩] rfl
  have hb := @Built.request _ _ _ _ (.editClass ⟨1⟩ ({ · with parents := [⟨⟨[⟨"P"⟩]⟩, []⟩] })) _
    hbMade (fun _ => ⟨rfl, rfl, rfl⟩) rfl (by decide +kernel)
  have hc := @Built.request _ _ _ _ (.editClass ⟨1⟩ ({ · with parents := [⟨⟨[⟨"P"⟩]⟩, []⟩] })) _
    hcMade (fun _ => ⟨rfl, rfl, rfl⟩) rfl (by decide +kernel)
  have hparts : Mergeable [_, _, _] :=
    { part := List.forall_mem_cons.mpr ⟨{ built := ⟨_, ha⟩, plain := by decide +kernel },
        List.forall_mem_cons.mpr ⟨{ built := ⟨_, hb⟩, plain := by decide +kernel },
          List.forall_mem_singleton.mpr { built := ⟨_, hc⟩, plain := by decide +kernel }⟩⟩
      counts := fun address _ =>
        Nat.lt_of_le_of_lt (totalAt_le_of_forall 1 (by decide +kernel) address)
          (by decide +kernel) }
  exact ⟨_, _, _, hparts, ⟨hplain, by decide +kernel, by decide, by decide +kernel⟩,
    ⟨hplain, by decide +kernel, by decide, by decide +kernel⟩,
    ⟨hplain, by decide +kernel, by decide, by decide +kernel⟩,
    merge_regrouped.1 _ _ _ hparts (by decide +kernel) (by decide +kernel) (by decide +kernel),
    merge_regrouped.2 [_] [_, _] hparts (by decide +kernel) (by decide +kernel)
      (by decide +kernel)⟩

end DeclGraph

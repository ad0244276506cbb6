import DeclGraph.Proofs.Outlines
import DeclGraph.Proofs.Repetition
import DeclGraph.Proofs.WrittenLines

/-!
# Graphs with one outline

An outline tells the tree.  Every line tells its depth, and what is below a declaration are the
lines that follow it and stand deeper; so two forests with the same lines are built alike,
and where lines are the same the declarations are written alike.  If no name and no comment
has a line feed, the outline falls into its lines again, and so graphs with the same
outline have the same tree up to the numbers of their slots.

Main results:

- Theorem `Graph.Reads.lines_cons_inj`: from the lines of a forest those below the first
  declaration can be told from those beside it.
- Theorem `Graph.Reads.mirrored`: forests with the same lines are built alike.
- Theorem `Built.equal_outlines`: graphs with the same outline have the same tree.
-/

namespace DeclGraph

open DeclGraph.Graph

namespace Graph

/-- No name in the graph and no comment has a line feed. -/
def OneLine (g : Graph) : Prop :=
  ∀ decl ∈ g.decls.toList, decl.OneLine

instance (g : Graph) : Decidable g.OneLine :=
  inferInstanceAs (Decidable (∀ decl ∈ g.decls.toList, decl.OneLine))

/-- What is in a slot stands for itself if there are no loose parameters. -/
theorem NoLooseParams.standing {g : Graph} (hg : NoLooseParams g) {id : DeclId} {decl : Decl}
    (hdecl : g.get? id = some decl) : decl.Standing := by
  have hkinds := hg id
  rw [kind?, hdecl, Option.map_some] at hkinds
  exact hkinds.imp (fun h hkind => h (congrArg some hkind)) fun h hkind => h (congrArg some hkind)

end Graph

/-! ## Lines of forests -/

namespace Forest

/-- There is one line for every declaration. -/
theorem length_lines (forest : Forest) (depth : Nat) :
    (forest.lines depth).length = forest.ids.length := by
  induction forest generalizing depth with
  | nil => rfl
  | cons id decl below rest ihBelow ihRest => simp [lines, ids, ihBelow, ihRest]

end Forest

namespace Graph
namespace Reads

variable {g h : Graph} {ids ids' : List DeclId} {forest forest' : Forest}

/-- The lines of a forest are those of its declarations, which stand as deep as it does, or
deeper. -/
theorem exists_of_mem_lines (hreads : Reads g ids forest) {depth : Nat} {line : String}
    (hline : line ∈ forest.lines depth) : ∃ id decl deeper, g.get? id = some decl ∧
      depth ≤ deeper ∧ line = outlineLine deeper decl := by
  induction hreads generalizing depth with
  | nil => contradiction
  | @cons id siblings decl below rest hdecl hbelow hrest ihBelow ihRest =>
      rw [Forest.lines, List.mem_cons, List.mem_append] at hline
      rcases hline with rfl | hline | hline
      · exact ⟨id, decl, depth, hdecl, Nat.le_refl depth, rfl⟩
      · obtain ⟨inner, found, deeper, hfound, hle, hsame⟩ := ihBelow hline
        exact ⟨inner, found, deeper, hfound, Nat.le_of_succ_le hle, hsame⟩
      · exact ihRest hline

/-- Every line of a forest is one line. -/
theorem isLine_of_mem_lines (hg : g.OneLine) (hreads : Reads g ids forest) {depth : Nat}
    {line : String} (hline : line ∈ forest.lines depth) : Text.IsLine line := by
  obtain ⟨id, decl, deeper, hdecl, -, rfl⟩ := hreads.exists_of_mem_lines hline
  exact isLine_outlineLine deeper (hg decl (mem_decls_of_get? hdecl))

/-- Whatever is below a declaration stands deeper than it. -/
theorem lt_indent_below (hg : NoLooseParams g) (hreads : Reads g ids forest) (depth : Nat) :
    ∀ line ∈ forest.lines (depth + 1), decide (2 * depth < indent line) = true := by
  intro line hline
  obtain ⟨id, decl, deeper, hdecl, hle, rfl⟩ := hreads.exists_of_mem_lines hline
  rw [indent_outlineLine deeper (hg.standing hdecl)]
  exact decide_eq_true (by omega)

/-- Whatever is beside a declaration begins with a line that does not stand deeper. -/
theorem takeWhile_lines_beside (hg : NoLooseParams g) (hreads : Reads g ids forest)
    (depth : Nat) :
    (forest.lines depth).takeWhile (fun line => decide (2 * depth < indent line)) = [] := by
  cases hreads with
  | nil => rfl
  | @cons id siblings decl below rest hdecl hbelow hrest =>
      have hindent := indent_outlineLine depth (hg.standing hdecl)
      rw [Forest.lines, List.takeWhile_cons_of_neg]
      simp [hindent]

/-- From the lines of a forest those below the first declaration can be told from those beside
it. -/
theorem lines_cons_inj (hg : NoLooseParams g) (hh : NoLooseParams h) {id id' : DeclId}
    {decl decl' : Decl} {below below' rest rest' : Forest} (hdecl : g.get? id = some decl)
    (hdecl' : h.get? id' = some decl') (hbelow : Reads g (g.memberIds id) below)
    (hbelow' : Reads h (h.memberIds id') below') (hrest : Reads g ids rest)
    (hrest' : Reads h ids' rest') {depth : Nat}
    (hlines : (Forest.cons id decl below rest).lines depth =
      (Forest.cons id' decl' below' rest').lines depth) :
    decl.text = decl'.text ∧ decl.companion?.isSome = decl'.companion?.isSome ∧
      below.lines (depth + 1) = below'.lines (depth + 1) ∧
      rest.lines depth = rest'.lines depth := by
  obtain ⟨hline, hlater⟩ := List.cons.inj hlines
  obtain ⟨-, htext, hcompanion⟩ :=
    outlineLine_inj (hg.standing hdecl) (hh.standing hdecl') hline
  have hparts := append_inj_of_takeWhile (hbelow.lt_indent_below hg depth)
    (hbelow'.lt_indent_below hh depth) (hrest.takeWhile_lines_beside hg depth)
    (hrest'.takeWhile_lines_beside hh depth) hlater
  exact ⟨htext, hcompanion, hparts⟩

end Reads

/-! ## Forests that are built alike -/

/-- The declaration `id'` of `h` is written like the declaration `id` of `g`, and has a companion
exactly if that one has. -/
def WrittenAlike (g h : Graph) (id id' : DeclId) : Prop :=
  ∃ decl decl', g.get? id = some decl ∧ h.get? id' = some decl' ∧ decl'.text = decl.text ∧
    decl'.companion?.isSome = decl.companion?.isSome

/-- The declaration `image id` of `h` is written like the declaration `id` of `g`, and its members
are the images of the members there. -/
structure Mirrored (g h : Graph) (image : DeclId → DeclId) (id : DeclId) : Prop where
  /-- The two are written alike. -/
  line : g.WrittenAlike h id (image id)
  /-- The members correspond to each other in their order. -/
  members : h.memberIds (image id) = (g.memberIds id).map image

/-- Forests with the same lines are built alike. -/
theorem Reads.mirrored {g h : Graph} (hg : NoLooseParams g) (hh : NoLooseParams h)
    {image : DeclId → DeclId} {ids ids' : List DeclId} {forest forest' : Forest}
    (hreads : Reads g ids forest) (hreads' : Reads h ids' forest') {depth : Nat}
    (hlines : forest.lines depth = forest'.lines depth)
    (himage : forest.ids.map image = forest'.ids) :
    ids' = ids.map image ∧
      forest'.entries depth = (forest.entries depth).map (Prod.map id image) ∧
      ∀ id ∈ forest.ids, Mirrored g h image id := by
  induction hreads generalizing ids' forest' depth with
  | nil =>
      cases hreads' with
      | nil => exact ⟨rfl, rfl, by simp [Forest.ids]⟩
      | cons => simp [Forest.lines] at hlines
  | @cons top siblings decl below rest hdecl hbelow hrest ihBelow ihRest =>
      cases hreads' with
      | nil => simp [Forest.lines] at hlines
      | @cons top' siblings' decl' below' rest' hdecl' hbelow' hrest' =>
          obtain ⟨htext, hcompanion, hlinesBelow, hlinesRest⟩ :=
            lines_cons_inj hg hh hdecl hdecl' hbelow hbelow' hrest hrest' hlines
          have hlength := congrArg List.length hlinesBelow
          rw [Forest.length_lines, Forest.length_lines] at hlength
          rw [Forest.ids, Forest.ids, List.map_cons, List.map_append] at himage
          obtain ⟨rfl, himages⟩ := List.cons.inj himage
          obtain ⟨himageBelow, himageRest⟩ :=
            List.append_inj himages (by rw [List.length_map, hlength])
          obtain ⟨hmembers, hentriesBelow, hbelowMirrored⟩ :=
            ihBelow hbelow' hlinesBelow himageBelow
          obtain ⟨hsiblings, hentriesRest, hrestMirrored⟩ := ihRest hrest' hlinesRest himageRest
          refine ⟨by rw [hsiblings, List.map_cons], ?_, ?_⟩
          · rw [Forest.entries, Forest.entries, hentriesBelow, hentriesRest, List.map_cons,
              List.map_append]
            rfl
          · rw [Forest.ids, List.forall_mem_cons, List.forall_mem_append]
            exact ⟨⟨⟨decl, decl', hdecl, hdecl', htext.symm, hcompanion.symm⟩, hmembers⟩,
              hbelowMirrored, hrestMirrored⟩

/-- What is at different places of a list can be sent to any other list of that length. -/
theorem exists_map_eq {places : List DeclId} (h : places.Nodup) {targets : List DeclId}
    (hlength : places.length = targets.length) : ∃ image, places.map image = targets := by
  refine ⟨fun id => targets.getD (places.idxOf id) root, List.ext_getElem (by simpa) ?_⟩
  intro i hi hi'
  rw [List.getElem_map, h.idxOf_getElem, List.getD_eq_getElem?_getD,
    List.getElem?_eq_getElem hi', Option.getD_some]

end Graph

/-- The graphs `g` and `h` show the same tree: from a listing of the one `image` leads to the
listing of the other. -/
structure Retraced (g h : Graph) (listed listed' : List (Nat × DeclId)) (image : DeclId → DeclId) :
    Prop where
  /-- The root stays the root. -/
  root : image Graph.root = Graph.root
  /-- The listings are of one length and have the same depths, and what is at one position in the
  one has its image at that position in the other. -/
  listed_eq : listed' = listed.map (Prod.map id image)
  /-- What corresponds to each other is written alike. -/
  shown : ∀ entry ∈ listed, g.WrittenAlike h entry.2 (image entry.2)
  /-- The members of every container correspond to the members of its image in their order. -/
  members : ∀ {container ids}, g.members container = .ok ids →
    h.members (image container) = .ok (ids.map image)

/-- **Equal outlines, equal trees.**  If no name and no comment of two built graphs has a line feed,
and their outlines are the same, then they have the same tree up to the numbers of the slots. -/
theorem Built.equal_outlines {naming naming' : Naming} {record record' : Record} {g h : Graph}
    (hg : Built naming record g) (hh : Built naming' record' h) (hgLines : g.OneLine)
    (hhLines : h.OneLine) (hsame : g.outline root = h.outline root) :
    ∃ listed listed' image, g.preorder root = .ok listed ∧ h.preorder root = .ok listed' ∧
      Retraced g h listed listed' image := by
  have hgTree := hg.coherent
  have hhTree := hh.coherent
  have hgLoose := hg.noLooseParams
  have hhLoose := hh.noLooseParams
  obtain ⟨forest, hreads⟩ := hgTree.exists_reads root
  obtain ⟨forest', hreads'⟩ := hhTree.exists_reads root
  rw [hgTree.outline_root hreads, hhTree.outline_root hreads'] at hsame
  have hlines := Text.eq_of_join_eq (fun _ hline => hreads.isLine_of_mem_lines hgLines hline)
    (fun _ hline => hreads'.isLine_of_mem_lines hhLines hline) (Except.ok.inj hsame)
  have hlength := congrArg List.length hlines
  rw [Forest.length_lines, Forest.length_lines] at hlength
  have hcount : (root :: forest.ids).length = (root :: forest'.ids).length := by simp [hlength]
  obtain ⟨image, himage⟩ := exists_map_eq (hgTree.nodup_cons_ids hreads) hcount
  obtain ⟨hroot, himages⟩ := List.cons.inj himage
  obtain ⟨hmembers, hentries, hmirrored⟩ := hreads.mirrored hgLoose hhLoose hreads' hlines himages
  refine ⟨_, _, image, hgTree.preorder_eq hgTree.isSome_key?_root hreads,
    hhTree.preorder_eq hhTree.isSome_key?_root hreads', hroot, hentries, ?_, ?_⟩
  · intro entry hentry
    have hid : entry.2 ∈ forest.ids := by
      rw [← Forest.map_snd_entries forest 0]
      exact List.mem_map_of_mem hentry
    exact (hmirrored _ hid).line
  · intro container ids hids
    obtain ⟨hcontainer, rfl⟩ := members_eq_ok_iff.mp hids
    rw [members_eq_ok_iff]
    obtain rfl | ⟨owner, howner⟩ := hgTree.eq_root_or_owned hcontainer
    · rw [hroot]
      exact ⟨hhTree.isSome_key?_root, hmembers.symm⟩
    · obtain ⟨⟨decl, decl', hdecl, hdecl', htext, -⟩, hmembers⟩ :=
        hmirrored container (hgTree.mem_ids hreads howner)
      have hsame := Decl.isContainer_eq_of_text_eq (hhLoose.standing hdecl')
        (hgLoose.standing hdecl) htext
      rw [key?, hdecl, Option.bind_some, Decl.isSome_key?] at hcontainer
      rw [key?, hdecl', Option.bind_some, Decl.isSome_key?]
      exact ⟨hsame.trans hcontainer, hmembers.symm⟩

/-- Two classes beside each other, one with a companion and one with a method, which was made before
the second class or after it. -/
theorem equal_outlines_of_reordered : ∃ record record' g h, Built issuedName record g ∧
    Built issuedName record' h ∧ g.OneLine ∧ h.OneLine ∧ g.outline root = h.outline root ∧
    g.get? ⟨2⟩ ≠ h.get? ⟨2⟩ ∧
    ∃ listed listed' image, g.preorder root = .ok listed ∧ h.preorder root = .ok listed' ∧
      Retraced g h listed listed' image := by
  have hg := built_played [.klass root ⟨"C"⟩, .method ⟨1⟩ ⟨"m"⟩, .klass root ⟨"D"⟩,
    .object root ⟨"C"⟩] rfl
  have hh := built_played [.klass root ⟨"C"⟩, .klass root ⟨"D"⟩, .method ⟨1⟩ ⟨"m"⟩,
    .object root ⟨"C"⟩] rfl
  refine ⟨_, _, _, _, hg, hh, ?lines, ?lines', ?same, by decide +kernel,
    Built.equal_outlines hg hh ?lines ?lines' ?same⟩
  all_goals decide +kernel

end DeclGraph

import DeclGraph.Proofs.IssuedNames
import DeclGraph.Proofs.Merging
import DeclGraph.Proofs.Rewriting

/-!
# References across a merge

Types refer to containers by path.  When a merge renames containers, paths that
lead to or through them follow.  Paths do not tell a class from the object beside it,
though, and so a path may be sent after an anonymous type on the side that it does
not lead through.

Main results:

- Theorem `Graph.Merging.follow_eq_path_iff`: a path that leads to a container is
  sent after it exactly if the innermost renamed container on it goes where the
  container of that path goes.
- Theorem `Graph.Merging.follow_eq_path`: where paths tell renamed containers apart,
  every path is sent after the container that it leads to.
- Theorem `Built.reference_kept_iff`: which references keep their target across a
  merge.
-/

namespace DeclGraph

namespace Graph

/-! ## Where paths lead -/

/-- One step down takes a package before a class and a class before an object. -/
theorem enter?_eq (g : Graph) (container : DeclId) (name : Name) : g.enter? container name =
    (g.lookup container (.package, name)).or
      ((g.lookup container (.klass, name)).or (g.lookup container (.object, name))) := by
  cases hget : g.get? container with
  | none => simp [enter?, scope?, lookup, index, hget]
  | some decl =>
      cases hscope : decl.scope? <;>
        simp [enter?, scope?, resolveIn?, Scope.find?, lookup, index, hget, Decl.index, hscope]

namespace Coherent

variable {g : Graph} (hg : Coherent g)

include hg

/-- One step down leads to a member of that name. -/
theorem of_enter? {container id : DeclId} {name : Name} (h : g.enter? container name = some id) :
    g.owner? id = some container ∧ ∃ kind, g.key? id = some (kind, name) := by
  have hfound : ∃ kind, g.lookup container (kind, name) = some id := by
    rw [enter?_eq, Option.or_eq_some_iff, Option.or_eq_some_iff] at h
    rcases h with hpackage | ⟨-, hklass | ⟨-, hobject⟩⟩
    · exact ⟨.package, hpackage⟩
    · exact ⟨.klass, hklass⟩
    · exact ⟨.object, hobject⟩
  rcases hfound with ⟨kind, hlookup⟩
  rcases hg.lookup_eq_some.mp hlookup with ⟨howner, hkey⟩
  exact ⟨howner, kind, hkey⟩

/-- What a longer path leads to is below what the shorter one leads to. -/
theorem of_resolve?_child {p : Path} {name : Name} {id : DeclId}
    (h : g.resolve? (p.child name) = some id) :
    ∃ container kind, g.resolve? p = some container ∧ g.owner? id = some container ∧
      g.key? id = some (kind, name) := by
  rw [resolve?_child] at h
  rcases Option.bind_eq_some_iff.mp h with ⟨container, hcontainer, henter⟩
  rcases hg.of_enter? henter with ⟨howner, kind, hkey⟩
  exact ⟨container, kind, hcontainer, howner, hkey⟩

/-- A path leads to a container of that path. -/
theorem path_of_resolve? {path : Path} {id : DeclId} (h : g.resolve? path = some id) :
    (g.key? id).isSome ∧ g.path id = path := by
  rcases path with ⟨segments⟩
  induction segments using List.reverseRecOn generalizing id with
  | nil =>
      obtain rfl := Option.some.inj h
      rw [hg.key?_root, path_root]
      exact ⟨rfl, rfl⟩
  | append_singleton above name ih =>
      rcases hg.of_resolve?_child (p := ⟨above⟩) h with
        ⟨container, kind, hcontainer, howner, hkey⟩
      rw [path_of_owner? hg howner hkey, (ih hcontainer).2, hkey]
      exact ⟨rfl, rfl⟩

end Coherent

/-- Where a path leads somewhere, so does the beginning of it. -/
theorem exists_resolve?_of_prefix {g : Graph} {path inner : Path} {id : DeclId}
    (h : g.resolve? path = some id) (hbegins : inner.segments <+: path.segments) :
    ∃ above, g.resolve? inner = some above := by
  rcases hbegins with ⟨rest, hrest⟩
  rw [resolve?, ← hrest, List.foldlM_append] at h
  rcases Option.bind_eq_some_iff.mp h with ⟨above, habove, -⟩
  exact ⟨above, habove⟩

/-! ## Sides -/

/-- No package has the name of a class or object beside it. -/
def PackagesApart (g : Graph) : Prop :=
  ∀ {container a b : DeclId} {kind : Kind} {name : Name}, g.owner? a = some container →
    g.owner? b = some container → g.key? a = some (.package, name) → g.key? b = some (kind, name) →
    kind = .package

/-- Where the root is the only package, no package stands beside anything. -/
theorem packagesApart_of_root {g : Graph} (hg : Coherent g)
    (h : ∀ decl ∈ g.decls.toList.tail, decl.kind ≠ .package) : PackagesApart g := by
  intro container a b kind name haOwner _ haKey _
  rcases Option.bind_eq_some_iff.mp haKey with ⟨decl, hdecl, hdeclKey⟩
  have hne : a.index ≠ 0 := by
    intro hzero
    have hroot : a = root := DeclId.eq_of_index_eq hzero
    rw [hroot, hg.owner?_root] at haOwner
    contradiction
  have hmem : decl ∈ g.decls.toList.tail := by
    refine List.mem_of_getElem? (i := a.index - 1) ?_
    rw [List.getElem?_tail, Nat.sub_add_cancel (Nat.one_le_iff_ne_zero.mpr hne),
      Array.getElem?_toList]
    exact hdecl
  exact absurd (Decl.kind_of_key? hdeclKey) (h decl hmem)

/-- A path that leads to a package leads to nothing else of that path. -/
theorem PackagesApart.eq_of_resolve?_path {g : Graph} (hapart : PackagesApart g) (hg : Coherent g)
    {id found : DeclId} (hid : (g.key? id).isSome) (hfound : g.resolve? (g.path id) = some found)
    (hkind : g.kind? found = some .package) : found = id := by
  induction hindex : id.index using Nat.strongRecOn generalizing id found with
  | ind index ih =>
      rcases hg.eq_root_or_owned hid with rfl | ⟨container, howner⟩
      · rw [path_root, resolve?_root] at hfound
        exact (Option.some.inj hfound).symm
      · rcases Option.isSome_iff_exists.mp hid with ⟨⟨kind, name⟩, hkey⟩
        rw [path_of_owner? hg howner hkey] at hfound
        rcases hg.of_resolve?_child hfound with
          ⟨above, foundKind, habove, hfoundOwner, hfoundKey⟩
        obtain rfl : .package = foundKind :=
          Option.some.inj (hkind.symm.trans (kind?_of_key? hfoundKey))
        have hlt := hg.owner_lt howner
        have hsame := ih container.index (by omega) (hg.isSome_key?_of_owner? howner) habove
          (hg.package_owner hfoundOwner hkind) rfl
        rw [hsame] at hfoundOwner
        obtain rfl := hapart hfoundOwner howner hfoundKey hkey
        exact hg.eq_of_key?_eq hfoundOwner howner hfoundKey hkey

/-- A class or object with an issued name and whatever its path leads to move alike: what they are
in becomes containers of one path, and both of these shift the number alike. -/
def MovedAlike (g other merged : Graph) (image : DeclId → DeclId) (id : DeclId) : Prop :=
  ∃ container side kind k, other.owner? id = some container ∧
    other.key? id = some (kind, Name.anonymous k) ∧
    other.resolve? (other.path container) = some side ∧
    merged.path (image container) = merged.path (image side) ∧
    Name.shiftIndex k (g.issued (image container)) = Name.shiftIndex k (g.issued (image side))

theorem child_eq_child_iff {p q : Path} {a b : Name} : p.child a = q.child b ↔ p = q ∧ a = b := by
  constructor
  · intro h
    have hsegments := congrArg Path.segments h
    rw [Path.segments_child, Path.segments_child] at hsegments
    rcases List.append_inj' hsegments rfl with ⟨habove, hlast⟩
    exact ⟨Path.eq_of_segments_eq habove, List.singleton_inj.mp hlast⟩
  · intro hgiven
    rcases hgiven with ⟨rfl, rfl⟩
    rfl

/-! ## What is copied -/

/-- The declarations of `other` were brought into `g`: `image` tells what they have become, and
`plan` which containers were renamed. -/
structure Transfer (g other merged : Graph) (plan : Renamings) (image : DeclId → DeclId) :
    Prop where
  /-- The root becomes the root. -/
  root : image root = root
  /-- A container becomes a container of its kind under the planned name, below where its owner
  goes. -/
  container : ∀ {c d : DeclId} {kind : Kind} {name : Name}, other.owner? d = some c →
    other.key? d = some (kind, name) →
    merged.key? (image d) = some (kind, plan.nameOf d name) ∧
      merged.owner? (image d) = some (image c)
  /-- Fields, comments and methods are copied and redirected, unless there was a method like it. -/
  copied : ∀ {c id : DeclId} {decl : Decl}, other.owner? id = some c →
    other.get? id = some decl → decl.key? = none →
    ¬ g.HasAlike g.size (image c) (plan.rename id decl) →
    merged.owner? (image id) = some (image c) ∧
      merged.get? (image id) = some (plan.rename id decl)
  /-- The parents of a class are copied and redirected. -/
  parents : ∀ {d : DeclId} {k : ClassDecl}, other.klass? d = some k →
    ∃ k', merged.klass? (image d) = some k' ∧
      ∀ parent ∈ k.parents, plan.redirect parent ∈ k'.parents
  /-- A new class has the type parameters of a class that became it, redirected. -/
  tparams : ∀ {e : DeclId} {k' : ClassDecl}, g.size ≤ e.index → merged.klass? e = some k' →
    ∃ d k, image d = e ∧ other.klass? d = some k ∧ k'.isTrait = k.isTrait ∧
      k'.tparams = (k.mapTypes plan.redirect).tparams
  /-- The containers whose names are shifted are renamed from their path to the new one. -/
  renamed : ∀ {entry : Renaming}, entry ∈ plan ↔ ∃ c kind name k,
    other.owner? entry.source = some c ∧ other.key? entry.source = some (kind, name) ∧
    kind ≠ .package ∧ name.anonymousIndex? = some k ∧ g.issued (image c) ≠ 0 ∧
    entry.name = Name.anonymous (Name.shiftIndex k (g.issued (image c))) ∧
    entry.fromPath = other.path entry.source ∧ entry.toPath = merged.path (image entry.source)
  /-- They are renamed in the order in which the incoming graph is read. -/
  order : ∃ forest,
    other.forest (Graph.root.index + 1) (other.memberIds Graph.root) = .ok forest ∧
      (plan.map Renaming.source).Sublist forest.ids
  /-- On every path in a type that is redirected, the innermost renamed container is exchanged for
  its new path, and all other paths stay. -/
  rewrites : plan.Rewrites

theorem sources_planned_sublist (g other : Graph) (forest : Forest) :
    ((g.planned other forest).map Renaming.source).Sublist forest.ids := by
  unfold planned
  induction forest.ids with
  | nil => exact List.Sublist.refl _
  | cons id rest ih =>
      cases hrenaming : g.renaming? other id with
      | none =>
          rw [List.filterMap_cons_none hrenaming]
          exact ih.cons _
      | some entry =>
          rw [List.filterMap_cons_some hrenaming, List.map_cons, source_of_renaming? hrenaming]
          exact ih.cons_cons _

namespace Merging

variable {g other merged : Graph} {forest : Forest} {log : List Arrival}
  (hm : Merging g other merged forest log)

include hm

/-- Where nothing deeper than the path `inner` is renamed, the names below it stay. -/
theorem mergedPath_below {path : Path} {d : DeclId} (hd : other.resolve? path = some d)
    (inner : Path) (hinner : inner.segments <+: path.segments)
    (hdeepest : ∀ entry ∈ g.planned other forest, entry.fromPath.segments <+: path.segments →
      entry.fromPath.length ≤ inner.length) :
    ∃ a, other.resolve? inner = some a ∧ g.mergedPath other d =
      ⟨(g.mergedPath other a).segments ++ path.segments.drop inner.length⟩ := by
  rcases path with ⟨segments⟩
  induction segments using List.reverseRecOn generalizing d with
  | nil =>
      obtain rfl : inner = Path.root := Path.eq_of_segments_eq (List.prefix_nil.mp hinner)
      exact ⟨d, hd, by simp⟩
  | append_singleton above name ih =>
      rcases List.prefix_concat_iff.mp hinner with hall | habove
      · obtain rfl : inner = ⟨above ++ [name]⟩ := Path.eq_of_segments_eq hall
        exact ⟨d, hd, by simp [Path.length]⟩
      · rcases hm.other_coherent.of_resolve?_child (p := ⟨above⟩) hd with
          ⟨container, kind, hcontainer, howner, hkey⟩
        have hlength : inner.length ≤ above.length := habove.length_le
        have hfixed : name.shifted? (g.offset other container) kind = none := by
          cases hshifted : name.shifted? (g.offset other container) kind with
          | none => rfl
          | some new =>
              have hentry : Renaming.mk d new (other.path d) (g.mergedPath other d) ∈
                  g.planned other forest := by
                refine List.mem_filterMap.mpr ⟨d, hm.other_coherent.mem_ids hm.reads howner, ?_⟩
                simp [renaming?, howner, hkey, hshifted]
              have hpath := (hm.other_coherent.path_of_resolve? hd).2
              have hle := hdeepest _ hentry (by simp [hpath])
              simp only [hpath, Path.length, List.length_append, List.length_singleton]
                at hle hlength
              omega
        rcases ih hcontainer habove fun entry hentry hbegins =>
            hdeepest entry hentry (hbegins.trans (List.prefix_append _ _)) with ⟨a, ha, hbelow⟩
        refine ⟨a, ha, ?_⟩
        rw [mergedPath_of_owner? hm.other_coherent howner hkey, hbelow, Name.merged, hfixed,
          Option.getD_none, Path.child, List.drop_append_of_le_length hlength, List.append_assoc]

/-- A path that leads to a container is sent after it exactly if the innermost renamed container on
it goes where the container of that path goes. -/
theorem follow_eq_path_iff {path : Path} {d : DeclId} (hd : other.resolve? path = some d) :
    (g.planned other forest).follow path = g.mergedPath other d ↔
      ∀ entry, (g.planned other forest).innermost path = some entry →
        ∃ a, other.resolve? entry.fromPath = some a ∧ entry.toPath = g.mergedPath other a := by
  unfold Renamings.follow
  cases hinnermost : (g.planned other forest).innermost path with
  | none =>
      rcases hm.mergedPath_below hd Path.root List.nil_prefix fun entry hentry hbegins =>
          absurd hbegins (Renamings.innermost_eq_none_iff.mp hinnermost entry hentry) with
        ⟨a, ha, hbelow⟩
      obtain rfl := Option.some.inj ha
      simp [hbelow, Path.length]
  | some entry =>
      rcases Renamings.innermost_spec hinnermost with ⟨-, hbegins, hdeepest⟩
      rcases hm.mergedPath_below hd _ hbegins hdeepest with ⟨a, ha, hbelow⟩
      simp only [hbelow, Path.mk.injEq, List.append_cancel_right_eq, Option.some.injEq]
      constructor
      · rintro hto _ rfl
        exact ⟨a, ha, Path.eq_of_segments_eq hto⟩
      · intro hall
        rcases hall entry rfl with ⟨b, hb, hto⟩
        obtain rfl := Option.some.inj (ha.symm.trans hb)
        rw [hto]

/-- Where the path of every renamed container leads to it, every path that leads to a container is
sent after it. -/
theorem follow_eq_path (hclear : ∀ entry ∈ g.planned other forest,
      other.resolve? entry.fromPath = some entry.source)
    {path : Path} {d : DeclId} (hd : other.resolve? path = some d) :
    (g.planned other forest).follow path = merged.path (imageIn log d) := by
  rw [hm.path_image (hm.other_coherent.path_of_resolve? hd).1, hm.follow_eq_path_iff hd]
  intro entry hinnermost
  have hentry := (Renamings.innermost_spec hinnermost).1
  have hsource := hclear entry hentry
  rcases hm.mem_planned_iff_shifted.mp hentry with ⟨_, _, _, _, _, _, _, _, _, _, _, hto⟩
  refine ⟨entry.source, hsource, ?_⟩
  rw [hto, hm.path_image (hm.other_coherent.path_of_resolve? hsource).1]

/-- A renamed container goes where the container of its path goes exactly if the two move alike. -/
theorem toPath_eq_iff (hnames : NamesIssued other) (hapart : PackagesApart other)
    {entry : Renaming} (hentry : entry ∈ g.planned other forest) {a : DeclId}
    (ha : other.resolve? entry.fromPath = some a) :
    entry.toPath = g.mergedPath other a ↔
      MovedAlike g other merged (imageIn log) entry.source := by
  rcases hm.mem_planned_iff_shifted.mp hentry with
    ⟨container, kind, name, k, howner, hkey, hkind, hindex, -, -, hfrom, hto⟩
  obtain rfl := (hnames howner hkey hkind hindex).1
  have hother := hm.other_coherent
  rw [hfrom, path_of_owner? hother howner hkey] at ha
  rcases hother.of_resolve?_child ha with ⟨side, aKind, hside, haOwner, haKey⟩
  -- What a path leads to could be a package, but then a package would stand beside the container.
  have haKind : aKind ≠ .package := by
    rintro rfl
    have hcontainer := hother.isSome_key?_of_owner? howner
    have hsame := hapart.eq_of_resolve?_path hother hcontainer hside
      (hother.package_owner haOwner (kind?_of_key? haKey))
    rw [hsame] at haOwner
    exact hkind (hapart haOwner howner haKey hkey)
  have hcontainer := hother.isSome_key?_of_owner? howner
  have hsideKey := hother.isSome_key?_of_owner? haOwner
  rw [hto, hm.path_image (by rw [hkey, Option.isSome_some]),
    mergedPath_of_owner? hother howner hkey, mergedPath_of_owner? hother haOwner haKey,
    Name.merged_issued_name hkind, Name.merged_issued_name haKind, child_eq_child_iff,
    hm.offset_eq hcontainer, hm.offset_eq hsideKey, ← hm.path_image hcontainer,
    ← hm.path_image hsideKey]
  constructor
  · intro hgiven
    rcases hgiven with ⟨hpath, hname⟩
    exact ⟨container, side, kind, k, howner, hkey, hside, hpath, Name.anonymous_injective hname⟩
  · intro hgiven
    rcases hgiven with ⟨container', side', kind', l, howner', hkey', hside', hpath, hshift⟩
    obtain rfl := Option.some.inj (howner.symm.trans howner')
    obtain rfl := Option.some.inj (hside.symm.trans hside')
    have hkeys := Option.some.inj (hkey.symm.trans hkey')
    obtain rfl := Name.anonymous_injective (congrArg Prod.snd hkeys)
    exact ⟨hpath, by rw [hshift]⟩

/-- What was read is what the incoming graph yields below its root. -/
theorem forest_eq : other.forest (root.index + 1) (other.memberIds root) = .ok forest :=
  hm.other_coherent.forest_of_reads
    (fun _ hid => hm.other_coherent.mem_memberIds.mp hid) hm.reads

/-- A merge that went through has brought in what it read. -/
theorem transfer : Transfer g other merged (g.planned other forest) (imageIn log) where
  root := hm.image_root
  container := by
    intro c d kind name howner hkey
    have hc := hm.other_coherent.isSome_key?_of_owner? howner
    have hread := hm.other_coherent.mem_ids hm.reads howner
    rw [planned, Renamings.nameOf_filterMap hread howner hkey, hm.offset_eq hc]
    exact hm.key?_image howner hkey
  copied := by
    intro c id decl howner hdecl hleaf hnew
    rcases hm.exists_arrival howner with ⟨a, ha, rfl⟩
    rcases hm.logged.exists_decl ha with ⟨found, hfound, hrenamed⟩
    obtain rfl := Option.some.inj (hdecl.symm.trans hfound)
    have haLeaf : a.decl.key? = none := by rwa [hrenamed, Renamings.key?_rename_eq_none_iff]
    rw [← hrenamed, ← hm.container_eq ha howner,
      ← (hm.logged.target_eq_none_iff hm.coherent hm.other_coherent ha haLeaf).1] at hnew
    rcases Option.ne_none_iff_exists'.mp hnew with ⟨e, he⟩
    rw [hm.image_eq ha he, ← hrenamed, ← hm.container_eq ha howner]
    have hne := hm.other_coherent.ne_root_of_owner? howner
    exact ⟨hm.logged.owner?_target hm.coherent ha hne he,
      hm.logged.get?_leaf hm.coherent hm.other_coherent ha haLeaf he⟩
  parents := by
    intro d k hk
    have hdecl := klass?_eq_some_iff.mp hk
    have hd : (other.key? d).isSome := by simp [Graph.key?, hdecl, Decl.key?]
    rcases hm.exists_arrival_container hd with ⟨a, ha, rfl, -, htarget⟩
    rcases hm.logged.exists_decl ha with ⟨found, hfound, hrenamed⟩
    obtain rfl := Option.some.inj (hdecl.symm.trans hfound)
    rcases hm.logged.exists_absorbed hm.coherent hm.other_coherent ha hrenamed htarget with
      ⟨before, hheader, hsubset, -⟩
    rcases exists_klass?_of_header? hheader with ⟨k', hk', -, -, hparents⟩
    refine ⟨k', hk', ?_⟩
    intro parent hparent
    rw [hparents]
    exact hsubset (List.mem_map_of_mem hparent)
  tparams := by
    intro e k' hnew hk'
    have hmade := klass?_eq_some_iff.mp hk'
    rcases hm.logged.exists_fresh hm.coherent hnew (index_lt_of_get? hmade) with
      ⟨a, ha, hfresh, htarget⟩
    rcases hm.logged.exists_decl ha with ⟨decl, hdecl, hrenamed⟩
    have hkind := (hm.logged.key?_target hm.coherent hm.other_coherent ha htarget).2
    rw [hrenamed, Renamings.kind_rename, Graph.kind?, hmade] at hkind
    cases decl <;> simp [Decl.kind] at hkind
    rename_i incoming
    rcases hm.logged.exists_absorbed hm.coherent hm.other_coherent ha hrenamed htarget with
      ⟨before, hheader, -, hheld⟩
    rcases hheld hfresh with ⟨htrait, htparams⟩
    rcases exists_klass?_of_header? hheader with ⟨found, hfound, hfoundTrait, hfoundTparams, -⟩
    obtain rfl := Option.some.inj (hk'.symm.trans hfound)
    exact ⟨a.source, incoming, hm.image_eq ha htarget, klass?_eq_some_iff.mpr hdecl,
      hfoundTrait.trans htrait, hfoundTparams.trans htparams⟩
  renamed := hm.mem_planned_iff_shifted
  order := ⟨forest, hm.forest_eq, sources_planned_sublist g other forest⟩
  rewrites := (g.planned other forest).rewrites

/-- Fields are copied and redirected without exception. -/
theorem get?_image_field {c id : DeclId} {field : FieldDecl} (howner : other.owner? id = some c)
    (hfield : other.get? id = some (.field field)) : merged.get? (imageIn log id) =
      some (.field (field.mapTypes (g.planned other forest).redirect)) := by
  refine (hm.transfer.copied howner hfield rfl ?_).2
  rintro ⟨_, -, -, found, method, -, hmethod, -⟩
  contradiction

/-- Where a path is sent can be computed from the two graphs. -/
theorem follow_eq_of_map {path sent : Path}
    (h : (other.forest (root.index + 1) (other.memberIds root)).map
      (fun read => (g.planned other read).follow path) = .ok sent) :
    (g.planned other forest).follow path = sent := by
  rw [hm.forest_eq] at h
  exact Except.ok.inj h

end Merging

end Graph

open DeclGraph.Graph

/-- Merging graphs that were built under issued names goes through, as long as there are slots for
what comes in.  A reference that leads to a container is sent after it, unless the innermost renamed
container on its path and what the path of that one leads to move in different ways. -/
theorem Built.reference_kept_iff {record otherRecord : Record} {g other : Graph}
    (hg : Built issuedName record g) (hother : Built issuedName otherRecord other)
    (hsize : ((Graph.merge other).final g).size < UInt32.size) (hapart : PackagesApart other) :
    ∃ merged plan image, Graph.merge other g = .ok () merged ∧
      Transfer g other merged plan image ∧
      ∀ (type : TypeExpr) (i : Nat) (path : Path) (arity : Nat) (d : DeclId),
        type.nodes[i]? = some (path, arity) → other.resolve? path = some d →
        ∃ copy, (plan.redirect type).nodes[i]? = some (copy, arity) ∧
          (copy = merged.path (image d) ↔ ∀ entry, plan.innermost path = some entry →
            MovedAlike g other merged image entry.source) := by
  rcases hg.exists_merging hother hsize with ⟨merged, forest, log, hmerge, hm⟩
  refine ⟨merged, _, _, hmerge, hm.transfer, ?_⟩
  intro type i path arity d hnode hd
  refine ⟨(g.planned other forest).follow path, ?_, ?_⟩
  · rw [Renamings.redirect, TypeExpr.nodes_mapPaths, List.getElem?_map, hnode]
    rfl
  · rw [hm.path_image (hother.coherent.path_of_resolve? hd).1, hm.follow_eq_path_iff hd]
    constructor
    · intro hall entry hentry
      rcases hall entry hentry with ⟨a, ha, hto⟩
      exact (hm.toPath_eq_iff hother.namesIssued hapart (Renamings.innermost_spec hentry).1
        ha).mp hto
    · intro hall entry hentry
      rcases Renamings.innermost_spec hentry with ⟨hmem, hbegins, -⟩
      rcases exists_resolve?_of_prefix hd hbegins with ⟨a, ha⟩
      exact ⟨a, ha, (hm.toPath_eq_iff hother.namesIssued hapart hmem ha).mpr
        (hall entry hentry)⟩

/-- A field whose type is the anonymous class of a class, merged into a graph where that class has
an anonymous class already. -/
theorem reference_kept_in_class : ∃ record otherRecord g other, Built issuedName record g ∧
    Built issuedName otherRecord other ∧ PackagesApart other ∧
    ∃ merged plan image, Graph.merge other g = .ok () merged ∧
      Transfer g other merged plan image ∧
      ∀ (type : TypeExpr) (i : Nat) (path : Path) (arity : Nat) (d : DeclId),
        type.nodes[i]? = some (path, arity) → other.resolve? path = some d →
        ∃ copy, (plan.redirect type).nodes[i]? = some (copy, arity) ∧
          (copy = merged.path (image d) ↔ ∀ entry, plan.innermost path = some entry →
            MovedAlike g other merged image entry.source) := by
  have hg := built_played [.klass root ⟨"C"⟩, .issueName ⟨1⟩, .klass ⟨1⟩ ⟨"anon$1"⟩] rfl
  have hother := built_played [.klass root ⟨"C"⟩, .issueName ⟨1⟩, .klass ⟨1⟩ ⟨"anon$1"⟩,
    .field root ⟨"r"⟩, .editField ⟨3⟩ ({ · with type := ⟨⟨[⟨"C"⟩, ⟨"anon$1"⟩]⟩, []⟩ })] rfl
  have hapart : PackagesApart _ := packagesApart_of_root hother.coherent (by decide +kernel)
  exact ⟨_, _, _, _, hg, hother, hapart,
    Built.reference_kept_iff hg hother (by decide +kernel) hapart⟩

/-- A field whose type is the anonymous class of a class that stands beside an object with an
anonymous class of its own, merged into a graph where only the object has one already: the copy of
the reference is sent after the anonymous class of the object. -/
theorem reference_lost_beside_object : ∃ record otherRecord g other, Built issuedName record g ∧
    Built issuedName otherRecord other ∧ PackagesApart other ∧
    ∃ merged plan image, Graph.merge other g = .ok () merged ∧
      Transfer g other merged plan image ∧
      ∃ field copy d, other.get? ⟨5⟩ = some (.field field) ∧
        other.resolve? field.type.head = some d ∧
        merged.get? (image ⟨5⟩) = some (.field copy) ∧
        merged.path (image d) = ⟨[⟨"Foo"⟩, ⟨"anon$1"⟩]⟩ ∧
        copy.type.head = ⟨[⟨"Foo"⟩, ⟨"anon$2"⟩]⟩ := by
  have hg := built_played [.object root ⟨"Foo"⟩, .issueName ⟨1⟩, .klass ⟨1⟩ ⟨"anon$1"⟩] rfl
  have hother := built_played [.klass root ⟨"Foo"⟩, .object root ⟨"Foo"⟩, .issueName ⟨1⟩,
    .klass ⟨1⟩ ⟨"anon$1"⟩, .issueName ⟨2⟩, .klass ⟨2⟩ ⟨"anon$1"⟩, .field root ⟨"r"⟩,
    .editField ⟨5⟩ ({ · with type := ⟨⟨[⟨"Foo"⟩, ⟨"anon$1"⟩]⟩, []⟩ })] rfl
  have hapart : PackagesApart _ := packagesApart_of_root hother.coherent (by decide +kernel)
  rcases hg.exists_merging hother (by decide +kernel) with ⟨merged, forest, log, hmerge, hm⟩
  refine ⟨_, _, _, _, hg, hother, hapart, merged, _, _, hmerge, hm.transfer, _, _, ⟨3⟩, rfl,
    by decide +kernel, hm.get?_image_field (c := root) rfl rfl, ?_, ?_⟩
  · rw [hm.path_image rfl]
    decide +kernel
  · exact hm.follow_eq_of_map (by decide +kernel)

end DeclGraph

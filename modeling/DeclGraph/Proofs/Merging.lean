import DeclGraph.Proofs.Protocol

/-!
# What a merge brings about

A merge that goes through leaves a log, and the log tells what every declaration of
the incoming graph has become.  Nothing is assumed here about the names that
classes and objects bear, or about how many names were issued: two anonymous
classes may even come together under one name when 32 bits do not suffice to shift
their numbers.

Main results:

- Theorem `Graph.Merging.image_cases`: what a container becomes is its site, or in
  a slot that was not there.
- Theorem `Graph.Merging.key?_image` and `Graph.Merging.path_image`: it has the
  merged key of the container, its merged path, and an owner that goes with it.
- Theorem `Graph.Log.exists_absorbed`: a class has the parents of all classes that
  came into it.
- Theorem `Built.exists_merging`: merging built graphs goes through.
-/

namespace DeclGraph

/-! ## What a class gains -/

/-- The parents `after` are the parents `before` and those of `incoming` that were missing. -/
def GainsParents (before incoming after : List TypeExpr) : Prop :=
  ∃ gained, after = before ++ gained ∧ gained.Sublist incoming ∧ gained.Nodup ∧
    ∀ parent, parent ∈ gained ↔ parent ∈ incoming ∧ parent ∉ before

/-- A class gains the parents that it lacks. -/
theorem ClassDecl.gainsParents (k : ClassDecl) (incoming : List TypeExpr) :
    GainsParents k.parents incoming (k.gainParents incoming).parents := by
  change GainsParents k.parents incoming (incoming.foldl _ k.parents)
  induction incoming generalizing k with
  | nil => exact ⟨[], by simp, List.Sublist.refl _, List.nodup_nil, by simp⟩
  | cons parent rest ih =>
      rw [List.foldl_cons]
      by_cases hknown : parent ∈ k.parents
      · rw [if_pos hknown]
        rcases ih k with ⟨gained, hafter, hsublist, hnodup, hmem⟩
        refine ⟨gained, hafter, hsublist.cons _, hnodup, ?_⟩
        intro other
        rw [hmem, List.mem_cons]
        constructor
        · intro hgiven
          rcases hgiven with ⟨hrest, hnew⟩
          exact ⟨Or.inr hrest, hnew⟩
        · intro hgiven
          rcases hgiven with ⟨rfl | hrest, hnew⟩
          · exact absurd hknown hnew
          · exact ⟨hrest, hnew⟩
      · rw [if_neg hknown]
        rcases ih { k with parents := k.parents ++ [parent] } with
          ⟨gained, hafter, hsublist, hnodup, hmem⟩
        refine ⟨parent :: gained, ?_, hsublist.cons_cons _, ?_, ?_⟩
        · rw [hafter, List.append_assoc, List.singleton_append]
        · rw [List.nodup_cons, hmem]
          exact ⟨fun hin => hin.2 (List.mem_append_right _ (List.mem_singleton.mpr rfl)), hnodup⟩
        · intro other
          rw [List.mem_cons, hmem, List.mem_cons, List.mem_append, List.mem_singleton]
          constructor
          · intro hgiven
            rcases hgiven with rfl | ⟨hrest, hnew⟩
            · exact ⟨Or.inl rfl, hknown⟩
            · exact ⟨Or.inr hrest, fun hold => hnew (Or.inl hold)⟩
          · intro hgiven
            rcases hgiven with ⟨rfl | hrest, hnew⟩
            · exact Or.inl rfl
            · by_cases hsame : other = parent
              · exact Or.inl hsame
              · exact Or.inr ⟨hrest, fun h => h.elim hnew hsame⟩

namespace ClassDecl

/-- A class keeps its parents, and new ones come after them. -/
theorem parents_prefix_absorb (k incoming : ClassDecl) (fresh : Bool) :
    k.parents <+: (k.absorb incoming fresh).parents := by
  have hgains : ∃ k' : ClassDecl, k'.parents = k.parents ∧
      (k.absorb incoming fresh).parents = (k'.gainParents incoming.parents).parents := by
    cases fresh <;> exact ⟨_, rfl, rfl⟩
  rcases hgains with ⟨k', hsame, habsorb⟩
  rcases k'.gainsParents incoming.parents with ⟨gained, hafter, -⟩
  rw [habsorb, hafter, hsame]
  exact List.prefix_append _ _

theorem incoming_subset_absorb (k incoming : ClassDecl) (fresh : Bool) :
    incoming.parents ⊆ (k.absorb incoming fresh).parents := by
  have hgains : ∃ k' : ClassDecl,
      (k.absorb incoming fresh).parents = (k'.gainParents incoming.parents).parents := by
    cases fresh <;> exact ⟨_, rfl⟩
  rcases hgains with ⟨k', habsorb⟩
  rcases k'.gainsParents incoming.parents with ⟨gained, hafter, -, -, hmem⟩
  intro parent hparent
  rw [habsorb, hafter, List.mem_append]
  by_cases hknown : parent ∈ k'.parents
  · exact Or.inl hknown
  · exact Or.inr ((hmem parent).mpr ⟨hparent, hknown⟩)

/-- A class gains nothing from parents that it has. -/
theorem gainParents_of_subset {k : ClassDecl} {incoming : List TypeExpr}
    (h : incoming ⊆ k.parents) : k.gainParents incoming = k := by
  rcases k.gainsParents incoming with ⟨gained, hafter, -, -, hmem⟩
  have hnone : gained = [] := by
    apply List.eq_nil_iff_forall_not_mem.mpr
    intro parent hparent
    rcases (hmem parent).mp hparent with ⟨hin, hnew⟩
    exact hnew (h hin)
  rw [hnone, List.append_nil] at hafter
  change { k with parents := (k.gainParents incoming).parents } = k
  rw [hafter]

end ClassDecl

/-- What has issued no names and declares no parents that are missing changes nothing where it
joins. -/
theorem Decl.absorb_eq_self {incoming old : Decl} (hissued : incoming.issued = 0)
    (hparents : ∀ k l, incoming = .klass k → old = .klass l → k.parents ⊆ l.parents) :
    incoming.absorb false old = old := by
  have hraise : ∀ scope : Scope, scope.raise 0 = scope := by
    intro scope
    rw [Scope.raise, Name.shiftIndex_zero]
  have hcount : ∀ decl : Decl, decl.mapScope (Scope.raise · 0) = decl := by
    intro decl
    cases decl <;> simp [mapScope, hraise]
  unfold absorb
  rw [hissued, hcount]
  cases incoming with
  | klass k =>
      cases old with
      | klass l =>
          have hgain := ClassDecl.gainParents_of_subset (hparents k l rfl rfl)
          simp [mapClass, ClassDecl.absorb, hgain]
      | _ => rfl
  | _ => rfl

namespace Graph

/-- What is absorbed by a class keeps the class and its parents. -/
theorem Effect.exists_class_kept {g h : Graph} {a : Arrival} (heffect : Effect g a h)
    (hg : Coherent g) {id : DeclId} {k : ClassDecl} (hk : g.header? id = some (.klass k)) :
    ∃ k', h.header? id = some (.klass k') ∧ k'.isTrait = k.isTrait ∧ k'.tparams = k.tparams ∧
      k.parents <+: k'.parents := by
  rw [heffect.header?]
  by_cases htarget : a.target = some id
  · have hlt : id.index < g.size := by
      rcases Option.map_eq_some_iff.mp hk with ⟨decl, hdecl, -⟩
      exact index_lt_of_get? hdecl
    rcases heffect.joined_of_lt hg htarget hlt with ⟨hfresh, key, hkey, -⟩
    rw [if_pos htarget, Arrival.settled, hkey, hfresh, hk]
    cases hdecl : a.decl with
    | klass incoming =>
        exact ⟨_, rfl, rfl, rfl, k.parents_prefix_absorb incoming false⟩
    | _ => exact ⟨_, rfl, rfl, rfl, List.prefix_refl _⟩
  · rw [if_neg htarget]
    exact ⟨k, hk, rfl, rfl, List.prefix_refl _⟩

/-- A class has the parents of all classes that came into it, and the rest of its header from the
one that it was made for. -/
theorem Log.exists_absorbed {g other h : Graph} {plan : Renamings} {log : List Arrival}
    (hg : Coherent g) (hother : Coherent other) (hlog : Log g other plan log h) {a : Arrival}
    (ha : a ∈ log) {k : ClassDecl} (hk : a.decl = .klass k) {e : DeclId} (he : a.target = some e) :
    ∃ k', h.header? e = some (.klass k') ∧ k.parents ⊆ k'.parents ∧
      (a.fresh = true → k'.isTrait = k.isTrait ∧ k'.tparams = k.tparams) := by
  induction hlog with
  | @start decl hdecl =>
      rw [List.mem_singleton] at ha
      subst ha
      have hroot := key?_rename_root hother plan hdecl
      simp only at hk
      rw [hk] at hroot
      simp [Decl.key?] at hroot
  | arrive hlog hparent htarget howner hdecl hrenamed hnew hstep hsize ih =>
      have hh := hlog.coherent hg
      have heffect := hstep.effect hh hsize
      rcases List.mem_append.mp ha with hold | hlast
      · rcases ih hold with ⟨before, hbefore, hparents, hmade⟩
        rcases heffect.exists_class_kept hh hbefore with ⟨k', hk', htrait, htparams, hprefix⟩
        refine ⟨k', hk', List.Subset.trans hparents hprefix.subset, ?_⟩
        intro hfresh
        rw [htrait, htparams]
        exact hmade hfresh
      · obtain rfl := List.mem_singleton.mp hlast
        have hkey : a.decl.key? = some (.klass, k.name) := by rw [hk]; rfl
        rw [heffect.header?, if_pos he, Arrival.settled, hkey, hk]
        cases hfresh : a.fresh with
        | true =>
            exact ⟨_, rfl, ClassDecl.incoming_subset_absorb _ k true, fun _ => ⟨rfl, rfl⟩⟩
        | false =>
            rcases heffect.target_joined e hfresh he with ⟨found, hfound, hlookup⟩
            obtain rfl := Option.some.inj (hkey.symm.trans hfound)
            have hold := (hh.lookup_eq_some.mp hlookup).2
            rw [key?_eq_header?] at hold
            rcases Option.bind_eq_some_iff.mp hold with ⟨before, hbefore, hbeforeKey⟩
            cases before <;> simp [Decl.key?] at hbeforeKey
            rw [hbefore]
            exact ⟨_, rfl, ClassDecl.incoming_subset_absorb _ k false, fun hcontra => by
              contradiction⟩

/-! ## Merges -/

/-- A merge that went through: what was read, and the log that it left. -/
structure Merging (g other merged : Graph) (forest : Forest) (log : List Arrival) : Prop where
  coherent : Coherent g
  other_coherent : Coherent other
  reads : Reads other (other.memberIds root) forest
  logged : Log g other (g.planned other forest) log merged
  sources : log.map Arrival.source = root :: forest.ids

/-- A class with this header has its trait flag, type parameters and parents. -/
theorem exists_klass?_of_header? {h : Graph} {id : DeclId} {k : ClassDecl}
    (hheader : h.header? id = some (.klass k)) : ∃ k', h.klass? id = some k' ∧
      k'.isTrait = k.isTrait ∧ k'.tparams = k.tparams ∧ k'.parents = k.parents := by
  rcases Option.map_eq_some_iff.mp hheader with ⟨decl, hdecl, hsame⟩
  cases decl <;> simp only [Decl.header, reduceCtorEq, Decl.klass.injEq] at hsame
  subst hsame
  rename_i found
  exact ⟨found, klass?_eq_some_iff.mpr hdecl, rfl, rfl, rfl⟩

/-- What a declaration has become according to a log. -/
def imageIn (log : List Arrival) (id : DeclId) : DeclId :=
  ((log.find? fun a => a.source = id).bind Arrival.target).getD root

namespace Merging

variable {g other merged : Graph} {forest : Forest} {log : List Arrival}
  (hm : Merging g other merged forest log)

include hm

theorem keys : KeysPlanned g other log :=
  hm.logged.keysPlanned hm.sources

theorem merged_coherent : Coherent merged :=
  hm.logged.coherent hm.coherent

/-- The image of a declaration is what it became on its arrival. -/
theorem image_eq {a : Arrival} (ha : a ∈ log) {e : DeclId} (he : a.target = some e) :
    imageIn log a.source = e := by
  unfold imageIn
  cases hfind : log.find? fun b => b.source = a.source with
  | none =>
      have hno := List.find?_eq_none.mp hfind a ha
      simp at hno
  | some b =>
      have hsource : b.source = a.source := by simpa using List.find?_some hfind
      have hsame := hm.logged.eq_of_source_eq (List.mem_of_find?_eq_some hfind) ha hsource
      rw [hsame, Option.bind_some, he, Option.getD_some]

/-- Whatever has an owner has arrived. -/
theorem exists_arrival {c d : DeclId} (howner : other.owner? d = some c) :
    ∃ a ∈ log, a.source = d := by
  have hread := hm.other_coherent.mem_ids hm.reads howner
  have hsource : d ∈ log.map Arrival.source := by
    rw [hm.sources]
    exact List.mem_cons_of_mem _ hread
  exact List.mem_map.mp hsource

/-- Every container has arrived as a container. -/
theorem exists_arrival_container {d : DeclId} (hd : (other.key? d).isSome) :
    ∃ a ∈ log, a.source = d ∧ a.decl.key?.isSome ∧ a.target = some (imageIn log d) := by
  have harrival : ∃ a ∈ log, a.source = d := by
    rcases hm.other_coherent.eq_root_or_owned hd with rfl | ⟨c, howner⟩
    · rcases hm.logged.exists_root with ⟨a, ha, hroot, -⟩
      exact ⟨a, ha, hroot⟩
    · exact hm.exists_arrival howner
  rcases harrival with ⟨a, ha, rfl⟩
  have hkey : a.decl.key?.isSome := by rw [hm.logged.isSome_key?_decl ha, hd]
  rcases hm.logged.exists_target ha hkey with ⟨e, he⟩
  exact ⟨a, ha, rfl, hkey, by rw [hm.image_eq ha he, he]⟩

theorem image_root : imageIn log root = root := by
  rcases hm.logged.exists_root with ⟨a, ha, hroot, htarget, -⟩
  rw [← hroot, hm.image_eq ha htarget, hroot]

/-- Except for the root, a declaration comes into the image of its owner. -/
theorem container_eq {a : Arrival} (ha : a ∈ log) {c : DeclId}
    (howner : other.owner? a.source = some c) : a.container = imageIn log c := by
  rcases hm.logged.cases_arrival hm.other_coherent ha with
    ⟨hroot, -⟩ | ⟨-, parent, hparent, hinto, hsource⟩
  · exact absurd hroot (hm.other_coherent.ne_root_of_owner? howner)
  · rw [howner] at hsource
    rw [Option.some.inj hsource, hm.image_eq hparent hinto]

/-- The image of a container has its merged key, and is owned by the image of its owner. -/
theorem mergedKey?_image {c d : DeclId} (howner : other.owner? d = some c)
    (hd : (other.key? d).isSome) : merged.key? (imageIn log d) = g.mergedKey? other d ∧
      merged.owner? (imageIn log d) = some (imageIn log c) := by
  rcases hm.exists_arrival_container hd with ⟨a, ha, rfl, haKey, htarget⟩
  have hne := hm.other_coherent.ne_root_of_owner? howner
  refine ⟨?_, ?_⟩
  · rw [(hm.logged.key?_target hm.coherent hm.other_coherent ha htarget).1, hm.keys a ha hne]
  · rw [hm.logged.owner?_target hm.coherent ha hne htarget, hm.container_eq ha howner]

/-- The image of a container is its site if it has one, and a new slot otherwise. -/
theorem image_cases {d : DeclId} (hd : (other.key? d).isSome) :
    (g.site other d = some (imageIn log d) ∧ (imageIn log d).index < g.size) ∨
      (g.site other d = none ∧ g.size ≤ (imageIn log d).index) := by
  induction hindex : d.index using Nat.strongRecOn generalizing d with
  | ind index ih =>
      cases hsite : g.site other d with
      | some e =>
          left
          rcases hm.exists_arrival_container hd with ⟨a, ha, rfl, -, htarget⟩
          have hjoined :=
            (hm.logged.target_of_site hm.coherent hm.other_coherent hm.keys ha hsite).1
          obtain rfl := Option.some.inj (hjoined.symm.trans htarget)
          rcases Option.isSome_iff_exists.mp
            (isSome_key?_of_site hm.coherent hm.other_coherent hsite) with ⟨key, hkey⟩
          exact ⟨rfl, index_lt_of_key? hkey⟩
      | none =>
          refine Or.inr ⟨rfl, Nat.le_of_not_lt ?_⟩
          intro hlt
          rcases hm.other_coherent.eq_root_or_owned hd with rfl | ⟨c, howner⟩
          · rw [site_root] at hsite
            contradiction
          -- A slot of before has an owner of before, which is the site of the owner of `d`.
          rcases hm.mergedKey?_image howner hd with ⟨hkey, hinto⟩
          rw [(hm.logged.key?_old hm.coherent hlt).1] at hkey
          rw [hm.logged.owner?_old hm.coherent hlt] at hinto
          have hearlier := hm.coherent.owner_lt hinto
          have hc := hm.other_coherent.isSome_key?_of_owner? howner
          have hbefore := hm.other_coherent.owner_lt howner
          rcases ih c.index (by omega) hc rfl with ⟨habove, -⟩ | ⟨-, hle⟩
          · rcases Option.isSome_iff_exists.mp hd with ⟨key, hdKey⟩
            rw [mergedKey?_of_owner? howner hdKey] at hkey
            rw [site_of_owner? hm.other_coherent howner, habove, Option.bind_some,
              mergedKey?_of_owner? howner hdKey, Option.bind_some,
              hm.coherent.lookup_eq_some.mpr ⟨hinto, hkey⟩] at hsite
            contradiction
          · omega

/-- The names in a container are shifted by as many names as its image had issued. -/
theorem offset_eq {d : DeclId} (hd : (other.key? d).isSome) :
    g.offset other d = g.issued (imageIn log d) := by
  rcases hm.image_cases hd with ⟨hsite, -⟩ | ⟨hsite, hle⟩
  · simp [offset, hsite]
  · simp [offset, hsite, Graph.issued, get?_eq_none_iff.mpr hle]

/-- The image of a container has its kind and its merged name, and is owned by the image of its
owner. -/
theorem key?_image {c d : DeclId} {key : Key} (howner : other.owner? d = some c)
    (hkey : other.key? d = some key) :
    merged.key? (imageIn log d) =
        some (key.1, Name.merged (g.issued (imageIn log c)) key.1 key.2) ∧
      merged.owner? (imageIn log d) = some (imageIn log c) := by
  have hd : (other.key? d).isSome := by rw [hkey, Option.isSome_some]
  have hc := hm.other_coherent.isSome_key?_of_owner? howner
  rw [← hm.offset_eq hc, ← mergedKey?_of_owner? howner hkey]
  exact hm.mergedKey?_image howner hd

/-- The image of a container is of its kind. -/
theorem kind?_image {d : DeclId} (hd : (other.key? d).isSome) :
    merged.kind? (imageIn log d) = other.kind? d := by
  rcases hm.exists_arrival_container hd with ⟨a, ha, rfl, -, htarget⟩
  exact (hm.logged.isSome_key?_target hm.coherent hm.other_coherent ha htarget).1

/-- The image of a container is a container. -/
theorem isSome_key?_image {d : DeclId} (hd : (other.key? d).isSome) :
    (merged.key? (imageIn log d)).isSome := by
  rw [isSome_key?_iff_kind?, hm.kind?_image hd, ← isSome_key?_iff_kind?]
  exact hd

/-- The image of a container has its merged path. -/
theorem path_image {d : DeclId} (hd : (other.key? d).isSome) :
    merged.path (imageIn log d) = g.mergedPath other d := by
  rcases hm.exists_arrival_container hd with ⟨a, ha, rfl, haKey, htarget⟩
  exact hm.logged.path_target hm.coherent hm.other_coherent hm.keys ha haKey htarget

/-- The plan renames the containers whose names are shifted, from their path to the new one. -/
theorem mem_planned_iff_shifted {entry : Renaming} : entry ∈ g.planned other forest ↔
    ∃ c kind name k, other.owner? entry.source = some c ∧
      other.key? entry.source = some (kind, name) ∧ kind ≠ .package ∧
      name.anonymousIndex? = some k ∧ g.issued (imageIn log c) ≠ 0 ∧
      entry.name = Name.anonymous (Name.shiftIndex k (g.issued (imageIn log c))) ∧
      entry.fromPath = other.path entry.source ∧
      entry.toPath = merged.path (imageIn log entry.source) := by
  rw [planned, List.mem_filterMap]
  constructor
  · intro hgiven
    rcases hgiven with ⟨source, -, hentry⟩
    rcases Option.bind_eq_some_iff.mp hentry with ⟨c, howner, hentry⟩
    rcases Option.bind_eq_some_iff.mp hentry with ⟨⟨kind, name⟩, hkey, hentry⟩
    rcases Option.map_eq_some_iff.mp hentry with ⟨new, hshifted, rfl⟩
    rcases Name.shifted?_eq_some_iff.mp hshifted with ⟨hissued, hkind, k, hindex, rfl⟩
    have hc := hm.other_coherent.isSome_key?_of_owner? howner
    rw [hm.offset_eq hc] at hissued ⊢
    exact ⟨c, kind, name, k, howner, hkey, hkind, hindex, hissued, rfl, rfl,
      (hm.path_image (by rw [hkey, Option.isSome_some])).symm⟩
  · intro hgiven
    rcases hgiven with ⟨c, kind, name, k, howner, hkey, hkind, hindex, hissued, hname, hfrom, hto⟩
    have hc := hm.other_coherent.isSome_key?_of_owner? howner
    refine ⟨entry.source, hm.other_coherent.mem_ids hm.reads howner, ?_⟩
    have hshifted : name.shifted? (g.offset other c) kind = some entry.name := by
      rw [Name.shifted?_eq_some_iff, hm.offset_eq hc]
      exact ⟨hissued, hkind, k, hindex, hname⟩
    rw [hm.path_image (by rw [hkey, Option.isSome_some])] at hto
    simp only [renaming?, howner, hkey, Option.bind_some, hshifted, Option.map_some, ← hfrom, ← hto]

end Merging

end Graph

open DeclGraph.Graph

/-- Merging built graphs goes through, as long as there are slots for what comes in, and leaves a
log behind. -/
theorem Built.exists_merging {naming : Naming} {record otherRecord : Record} {g other : Graph}
    (hg : Built naming record g) (hother : Built naming otherRecord other)
    (hsize : ((Graph.merge other).final g).size < UInt32.size) :
    ∃ merged forest log, Graph.merge other g = .ok () merged ∧
      Merging g other merged forest log := by
  rcases exists_log_of_merge hg.coherent hother.coherent hsize with
    ⟨forest, log, merged, hreads, hmerge, hlog, hsources⟩
  exact ⟨merged, forest, log, hmerge,
    { coherent := hg.coherent
      other_coherent := hother.coherent
      reads := hreads
      logged := hlog
      sources := hsources }⟩

end DeclGraph

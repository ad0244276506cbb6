import DeclGraph.Proofs.IssuedNames
import DeclGraph.Proofs.Merging

/-!
# Merging once more

What was merged into a graph is there afterwards.  When it is merged again, every
container meets what it has become, and every method one like itself; so the second
merge changes nothing, as long as there is nothing else to copy and no names are
counted twice.  The plan of the second merge is that of the first, although it is
made from another graph: no counts have changed, and a container that had no site
before is its own site now.

Main results:

- Theorem `Graph.Built.noLooseParams`: members are containers, fields, methods and
  comments.
- Theorem `Graph.Merging.site_again`: after a merge every container has what it
  became as its site.
- Theorem `Graph.Merging.planned_again`: the same renamings are planned again.
- Theorem `Graph.Merging.adopt_again`: what was brought in is brought in again
  without a change.
- Theorem `Built.merge_again`: a second merge of one graph changes nothing.
-/

namespace DeclGraph

/-! ## What members are -/

namespace Graph

/-- Type parameters and parameters stand in signatures only, and not in slots of their own. -/
def NoLooseParams (g : Graph) : Prop :=
  ∀ id, g.kind? id ≠ some .typeParam ∧ g.kind? id ≠ some .param

end Graph

open DeclGraph.Graph

/-- No request makes a type parameter or a parameter. -/
theorem Outcome.noLooseParams {naming : Naming} {record record' : Record} {g g' : Graph}
    (h : Outcome naming record g record' g') (hg : Coherent g) (hold : NoLooseParams g) :
    NoLooseParams g' := by
  intro id
  cases h with
  | found => exact hold id
  | enlisted hfits hissued hnamed hmember =>
      rw [hfits.kind? hg]
      split
      · simpa using hmember
      · exact hold id
  | edited hplace =>
      rw [(sameTree_modify fun decl _ => hplace decl).kind?]
      exact hold id
  | issued =>
      rw [(sameTree_modify fun decl _ => samePlace_mapScope_issue decl).kind?]
      exact hold id
  | removed =>
      rw [kind?_detach]
      exact hold id

/-- A merge brings in only what the incoming graph has. -/
theorem Graph.Log.noLooseParams {g other h : Graph} {plan : Renamings} {log : List Arrival}
    (hg : Coherent g) (hother : Coherent other) (hlog : Log g other plan log h)
    (hold : NoLooseParams g) (hincoming : NoLooseParams other) : NoLooseParams h := by
  intro id
  by_cases hid : id.index < g.size
  · rw [(hlog.key?_old hg hid).2]
    exact hold id
  · by_cases hlt : id.index < h.size
    · rcases hlog.exists_fresh hg (Nat.le_of_not_lt hid) hlt with ⟨a, ha, -, htarget⟩
      rcases hlog.exists_decl ha with ⟨decl, hdecl, hrenamed⟩
      have hsource := hincoming a.source
      rw [Graph.kind?, hdecl, Option.map_some] at hsource
      rw [(hlog.key?_target hg hother ha htarget).2, hrenamed, Renamings.kind_rename]
      exact hsource
    · simp [Graph.kind?, get?_eq_none_iff.mpr (Nat.le_of_not_lt hlt)]

/-- Members of built graphs are containers, fields, methods and comments. -/
theorem Built.noLooseParams {naming : Naming} {record : Record} {g : Graph}
    (h : Built naming record g) : NoLooseParams g := by
  induction h with
  | new =>
      intro id
      by_cases hid : id = root
      · subst hid
        exact ⟨by decide, by decide⟩
      · simp [Graph.kind?, get?_empty hid]
  | request hbuilt hadmitted hrun hsize ih =>
      exact (Request.outcome hbuilt.coherent hadmitted hrun).noLooseParams hbuilt.coherent ih
  | merge hbuilt hother hrun hsize ih ihOther =>
      rcases hbuilt.exists_log hother hrun hsize with ⟨forest, log, -, hlog, -⟩
      exact hlog.noLooseParams hbuilt.coherent hother.coherent ih ihOther

namespace Graph

/-- Everything attached that is no container is a method. -/
def MethodsOnly (g : Graph) : Prop :=
  ∀ {c id : DeclId} {decl : Decl}, g.owner? id = some c → g.get? id = some decl →
    decl.key? = none → ∃ method, decl = .method method

theorem kind?_ne_of_forall {g : Graph} {kind : Kind}
    (h : ∀ decl ∈ g.decls.toList, decl.kind ≠ kind) (id : DeclId) : g.kind? id ≠ some kind := by
  intro hkind
  rcases Option.map_eq_some_iff.mp hkind with ⟨decl, hdecl, hsame⟩
  exact h decl (mem_decls_of_get? hdecl) hsame

/-- Where no fields and comments are attached, only methods are. -/
theorem NoLooseParams.methodsOnly {g : Graph} (h : NoLooseParams g)
    (hleaves : ∀ id, g.isAttached id = true →
      g.kind? id ≠ some .field ∧ g.kind? id ≠ some .comment) : MethodsOnly g := by
  intro c id decl howner hdecl hleaf
  have hattached : g.isAttached id = true := isAttached_iff_owned.mpr (Or.inr ⟨c, howner⟩)
  have hloose := h id
  have hno := hleaves id hattached
  rw [Graph.kind?, hdecl, Option.map_some] at hloose hno
  cases decl with
  | method method => exact ⟨method, rfl⟩
  | comment text => exact absurd rfl hno.2
  | field field => exact absurd rfl hno.1
  | typeParam tparam => exact absurd rfl hloose.1
  | param param => exact absurd rfl hloose.2
  | package package => contradiction
  | klass klass => contradiction
  | object object => contradiction

/-- A change that does nothing to what is in its slot does nothing to the graph. -/
theorem modify_eq_self {g : Graph} {id : DeclId} {change : Decl → Decl}
    (h : ∀ decl, g.get? id = some decl → change decl = decl) : g.modify id change = g := by
  have hdecls : g.decls.modify id.index change = g.decls := by
    apply Array.ext_getElem?
    intro index
    rw [Array.getElem?_modify]
    split
    · next hindex =>
        subst hindex
        cases hdecl : g.decls[id.index]? with
        | none => rfl
        | some decl => rw [Option.map_some, h decl hdecl]
    · rfl
  rw [modify, hdecls]

/-! ## The second plan -/

theorem issued_eq_zero_of_forall {g : Graph}
    (h : ∀ decl ∈ g.decls.toList, decl.issued.toNat ≤ 0) (id : DeclId) : g.issued id = 0 := by
  apply UInt32.toNat_inj.mp
  exact Nat.le_zero.mp (issued_le_of_forall h id)

/-- No counts change where no names come in that were issued. -/
theorem Log.issued_of_zero {g other h : Graph} {plan : Renamings} {log : List Arrival}
    (hg : Coherent g) (hlog : Log g other plan log h) (hzero : ∀ id, other.issued id = 0)
    (id : DeclId) : h.issued id = g.issued id := by
  have hnothing : ∀ {h : Graph} {log : List Arrival}, Log g other plan log h → ∀ a ∈ log,
      ∀ n, Name.shiftIndex n a.decl.issued = n := by
    intro h log hlog a ha n
    rw [hlog.issued_decl ha, hzero, Name.shiftIndex_zero]
  induction hlog with
  | start hdecl =>
      have hroot := hg.isSome_key?_root
      rw [issued_modify_absorb hroot, hnothing (.start hdecl) _ List.mem_cons_self]
      split
      · next hid => rw [hid]
      · rfl
  | @arrive log h h' parent a decl hlog hparent htarget howner hdecl hrenamed hnew hstep hsize ih =>
      have hlast := hnothing
        (.arrive hlog hparent htarget howner hdecl hrenamed hnew hstep hsize) a (by simp)
      rw [(hstep.effect (hlog.coherent hg) hsize).issued (hlog.coherent hg), hlast, ih, ite_self]

namespace Merging

variable {g other merged : Graph} {forest : Forest} {log : List Arrival}
  (hm : Merging g other merged forest log)

include hm

section Counts

variable (hzero : ∀ id, other.issued id = 0)

include hzero

/-- Where a container has what it became as its site, as many names were issued as before. -/
theorem offset_again_of_site {c : DeclId} (hc : (other.key? c).isSome)
    (hsite : merged.site other c = some (imageIn log c)) :
    merged.offset other c = g.offset other c := by
  rw [hm.offset_eq hc, offset, hsite]
  exact hm.logged.issued_of_zero hm.coherent hzero (imageIn log c)

/-- After a merge every container has what it became as its site. -/
theorem site_again {d : DeclId} (hd : (other.key? d).isSome) :
    merged.site other d = some (imageIn log d) := by
  induction hindex : d.index using Nat.strongRecOn generalizing d with
  | ind index ih =>
      rcases hm.other_coherent.eq_root_or_owned hd with rfl | ⟨c, howner⟩
      · rw [site_root, hm.image_root]
      · have hbefore := hm.other_coherent.owner_lt howner
        have hc := hm.other_coherent.isSome_key?_of_owner? howner
        have hsite := ih c.index (by omega) hc rfl
        rcases Option.isSome_iff_exists.mp hd with ⟨key, hkey⟩
        rcases hm.mergedKey?_image howner hd with ⟨himage, hinto⟩
        rw [mergedKey?_of_owner? howner hkey] at himage
        rw [site_of_owner? hm.other_coherent howner, hsite, Option.bind_some,
          mergedKey?_of_owner? howner hkey, Option.bind_some, hm.offset_again_of_site hzero hc hsite]
        exact hm.merged_coherent.lookup_eq_some.mpr ⟨hinto, himage⟩

/-- In a container as many names were issued as before the merge. -/
theorem offset_again {c : DeclId} (hc : (other.key? c).isSome) :
    merged.offset other c = g.offset other c :=
  hm.offset_again_of_site hzero hc (hm.site_again hzero hc)

/-- Every container goes in under the same kind and name again. -/
theorem mergedKey?_again (d : DeclId) : merged.mergedKey? other d = g.mergedKey? other d := by
  cases howner : other.owner? d with
  | none => simp only [mergedKey?, howner, Option.elim_none]
  | some c =>
      have hc := hm.other_coherent.isSome_key?_of_owner? howner
      simp only [mergedKey?, howner, Option.elim_some, hm.offset_again hzero hc]

/-- The same renamings are planned again. -/
theorem planned_again : merged.planned other forest = g.planned other forest := by
  unfold planned
  congr 1
  funext id
  cases howner : other.owner? id with
  | none => simp only [renaming?, howner, Option.bind_none]
  | some c =>
      have hc := hm.other_coherent.isSome_key?_of_owner? howner
      simp only [renaming?, mergedPath, howner, Option.bind_some, hm.offset_again hzero hc,
        hm.mergedKey?_again hzero]

/-! ## The second adoption -/

/-- What a container became has everything already that the container declares of itself. -/
theorem absorb_again {d : DeclId} {decl : Decl} (hdecl : other.get? d = some decl)
    (hd : decl.key?.isSome) :
    merged.modify (imageIn log d) (((g.planned other forest).rename d decl).absorb false) =
      merged := by
  have hdKey : (other.key? d).isSome := by rw [Graph.key?, hdecl, Option.bind_some, hd]
  rcases hm.exists_arrival_container hdKey with ⟨a, ha, rfl, -, htarget⟩
  rcases hm.logged.exists_decl ha with ⟨found, hfound, hrenamed⟩
  obtain rfl := Option.some.inj (hdecl.symm.trans hfound)
  apply modify_eq_self
  intro old hold
  rw [← hrenamed]
  apply Decl.absorb_eq_self
  · rw [hm.logged.issued_decl ha, hzero]
  · intro k l hk hl
    rcases hm.logged.exists_absorbed hm.coherent hm.other_coherent ha hk htarget with
      ⟨k', hk', hparents, -⟩
    rcases exists_klass?_of_header? hk' with ⟨l', hl', -, -, hsame⟩
    rw [klass?_eq_some_iff, hold, hl, Option.some.injEq, Decl.klass.injEq] at hl'
    rw [hl', hsame]
    exact hparents

end Counts

/-- What became of the owner of a method has a method like it. -/
theorem hasAlike_again {c id : DeclId} {method : MethodDecl} (howner : other.owner? id = some c)
    (hdecl : other.get? id = some (.method method)) :
    merged.HasAlike merged.size (imageIn log c)
      ((g.planned other forest).rename id (.method method)) := by
  rcases hm.exists_arrival howner with ⟨a, ha, rfl⟩
  rcases hm.logged.exists_decl ha with ⟨found, hfound, hrenamed⟩
  obtain rfl := Option.some.inj (hdecl.symm.trans hfound)
  have hne := hm.other_coherent.ne_root_of_owner? howner
  have hleaf : a.decl.key? = none := by rw [hrenamed]; rfl
  rw [← hm.container_eq ha howner, ← hrenamed]
  cases htarget : a.target with
  | none =>
      have hold := (hm.logged.target_eq_none_iff hm.coherent hm.other_coherent ha hleaf).1.mp htarget
      rcases (hm.logged.hasAlike_iff hm.coherent).mpr hold with ⟨id, hid, hlt, halike⟩
      exact ⟨id, hid, Nat.lt_of_lt_of_le hlt (hm.logged.size_le hm.coherent), halike⟩
  | some target =>
      have hmember := hm.logged.owner?_target hm.coherent ha hne htarget
      have hcopy := hm.logged.get?_leaf hm.coherent hm.other_coherent ha hleaf htarget
      exact ⟨target, hm.merged_coherent.mem_memberIds.mpr hmember, index_lt_of_get? hcopy, _, _,
        by rw [hcopy, hrenamed]; rfl, hrenamed, rfl⟩

/-- A container that is brought in again joins what it became, and changes nothing there. -/
theorem adoptDecl_container_again (hzero : ∀ id, other.issued id = 0) {c id : DeclId}
    {decl : Decl} (howner : other.owner? id = some c) (hdecl : other.get? id = some decl)
    (hd : decl.key?.isSome) (adoptBelow : DeclId → Build Unit) :
    adoptDecl merged.size adoptBelow ((g.planned other forest).rename id decl) (imageIn log c)
      merged = adoptBelow (imageIn log id) merged := by
  have hdKey : (other.key? id).isSome := by rw [Graph.key?, hdecl, Option.bind_some, hd]
  have hcontainer := hm.isSome_key?_image (hm.other_coherent.isSome_key?_of_owner? howner)
  have hplanned : ((g.planned other forest).rename id decl).key? = g.mergedKey? other id :=
    Renamings.key?_rename (hm.other_coherent.mem_ids hm.reads howner) howner hdecl
  rcases hm.mergedKey?_image howner hdKey with ⟨himage, hinto⟩
  rw [← Renamings.isSome_key?_rename (g.planned other forest) id] at hd
  rcases Option.isSome_iff_exists.mp hd with ⟨key, hkey⟩
  have hfound : merged.lookup (imageIn log c) key = some (imageIn log id) := by
    apply hm.merged_coherent.lookup_eq_some.mpr
    exact ⟨hinto, himage.trans (hplanned.symm.trans hkey)⟩
  have hpackage : key.1 = .package → merged.kind? (imageIn log c) = some .package := by
    intro hkind
    have hsource : other.kind? id = some .package := by
      rw [← hm.kind?_image hdKey, kind?_of_key? (hm.merged_coherent.lookup_eq_some.mp hfound).2,
        hkind]
    rw [hm.kind?_image (hm.other_coherent.isSome_key?_of_owner? howner)]
    exact hm.other_coherent.package_owner howner hsource
  rcases exists_step_container hm.merged_coherent hcontainer hkey hpackage merged.size adoptBelow id
    with ⟨target, fresh, h, hstep, hrun⟩
  rw [hrun]
  cases hstep with
  | joined hsame hthere =>
      obtain rfl := Option.some.inj (hkey.symm.trans hsame)
      obtain rfl := Option.some.inj (hfound.symm.trans hthere)
      rw [hm.absorb_again hzero hdecl (by rwa [← Renamings.isSome_key?_rename])]
  | founded hsame hnew =>
      obtain rfl := Option.some.inj (hkey.symm.trans hsame)
      rw [hfound] at hnew
      contradiction
  | copied hleaf =>
      rw [hkey] at hleaf
      contradiction

/-- A method that is brought in again is left out. -/
theorem adoptDecl_method_again {c id : DeclId} {method : MethodDecl}
    (howner : other.owner? id = some c) (hdecl : other.get? id = some (.method method))
    (adoptBelow : DeclId → Build Unit) :
    adoptDecl merged.size adoptBelow ((g.planned other forest).rename id (.method method))
      (imageIn log c) merged = .ok () merged := by
  have hcontainer := hm.isSome_key?_image (hm.other_coherent.isSome_key?_of_owner? howner)
  have hmethod : ((g.planned other forest).rename id (.method method)).key? = none := rfl
  rcases exists_step_leaf hcontainer hmethod merged.size adoptBelow id with
    ⟨target, fresh, h, hstep, hrun⟩
  rw [hrun]
  cases hstep with
  | joined hkey => contradiction
  | founded hkey => contradiction
  | copied hleaf hthere hnew => exact absurd (hm.hasAlike_again howner hdecl) hnew
  | dropped => rfl

/-- What was brought in is brought in again without a change. -/
theorem adopt_again (hzero : ∀ id, other.issued id = 0) (hmethods : MethodsOnly other)
    {ids : List DeclId} {part : Forest} (hreads : Reads other ids part) {c : DeclId}
    (howner : ∀ id ∈ ids, other.owner? id = some c) :
    adopt merged.size (part.map (g.planned other forest).rename) (imageIn log c) merged =
      .ok () merged := by
  induction hreads generalizing c with
  | nil => rfl
  | @cons id siblings decl below rest hdecl hbelow hrest ihBelow ihRest =>
      have hid := howner id List.mem_cons_self
      have hfirst : adoptDecl merged.size
          (fun target => adopt merged.size (below.map (g.planned other forest).rename) target)
          ((g.planned other forest).rename id decl) (imageIn log c) merged = .ok () merged := by
        cases hkey : decl.key? with
        | none =>
            rcases hmethods hid hdecl hkey with ⟨method, rfl⟩
            exact hm.adoptDecl_method_again hid hdecl _
        | some key =>
            rw [hm.adoptDecl_container_again hzero hid hdecl (by rw [hkey, Option.isSome_some])]
            exact ihBelow fun member hmember => hm.other_coherent.mem_memberIds.mp hmember
      rw [Forest.map, Graph.adopt, Build.bind_of_ok hfirst]
      exact ihRest fun sibling hsibling => howner sibling (List.mem_cons_of_mem _ hsibling)

/-- A second merge changes nothing. -/
theorem merge_twice (hzero : ∀ id, other.issued id = 0) (hmethods : MethodsOnly other) :
    Graph.merge other merged = .ok () merged := by
  rcases exists_get? (index_lt_of_key? hm.other_coherent.key?_root) with ⟨decl, hdecl⟩
  have hroot : decl.key?.isSome := by
    have hkey := hm.other_coherent.key?_root
    rw [Graph.key?, hdecl, Option.bind_some] at hkey
    rw [hkey, Option.isSome_some]
  have habsorb := hm.absorb_again hzero hdecl hroot
  have hadopt := hm.adopt_again hzero hmethods hm.reads
    fun id hid => hm.other_coherent.mem_memberIds.mp hid
  rw [hm.image_root] at habsorb hadopt
  rw [merge_eq_adopt hm.merged_coherent hm.other_coherent hm.reads hdecl, hm.planned_again hzero,
    habsorb, hadopt]

end Merging

end Graph

/-- **Merging once more.**  Merging a built graph goes through, as long as there are slots for what
comes in.  If no fields and comments are attached in it and it has issued no names, merging it a
second time leaves the result as it is. -/
theorem Built.merge_again {naming : Naming} {record otherRecord : Record} {g other : Graph}
    (hg : Built naming record g) (hother : Built naming otherRecord other)
    (hleaves : ∀ id, other.isAttached id = true →
      other.kind? id ≠ some .field ∧ other.kind? id ≠ some .comment)
    (hzero : ∀ id, other.issued id = 0)
    (hsize : ((Graph.merge other).final g).size < UInt32.size) :
    ∃ merged, Graph.merge other g = .ok () merged ∧ Graph.merge other merged = .ok () merged := by
  rcases hg.exists_merging hother hsize with ⟨merged, forest, log, hmerge, hm⟩
  exact ⟨merged, hmerge, hm.merge_twice hzero (hother.noLooseParams.methodsOnly hleaves)⟩

/-- A class that was given an anonymous name without asking for one, with two methods that are
alike, merged twice into a graph that has issued a name. -/
theorem merge_again_of_unissued_name : ∃ record otherRecord g other,
    Built anyName record g ∧ Built anyName otherRecord other ∧
    (∀ id, other.isAttached id = true →
      other.kind? id ≠ some .field ∧ other.kind? id ≠ some .comment) ∧
    (∀ id, other.issued id = 0) ∧
    ∃ merged, Graph.merge other g = .ok () merged ∧ Graph.merge other merged = .ok () merged := by
  have hissue : ∀ record g, (Request.issueName root).Admitted anyName record g :=
    fun _ _ => trivial
  have hclass : ∀ record g, (Request.klass root ⟨"anon$1"⟩).Admitted anyName record g :=
    fun _ _ _ => trivial
  have hmethod : ∀ record g, (Request.method ⟨1⟩ ⟨"m"⟩).Admitted anyName record g :=
    fun _ _ => trivial
  have hg := Built.new.request (hissue _ _) rfl (by decide +kernel)
  have hother := ((Built.new.request (hclass _ _) rfl (by decide +kernel)).request (hmethod _ _) rfl
    (by decide +kernel)).request (hmethod _ _) rfl (by decide +kernel)
  refine ⟨_, _, _, _, hg, hother, ?leaves, ?zero,
    Built.merge_again hg hother ?leaves ?zero (by decide +kernel)⟩
  · exact fun id _ => ⟨kind?_ne_of_forall (by decide +kernel) id,
      kind?_ne_of_forall (by decide +kernel) id⟩
  · exact issued_eq_zero_of_forall (by decide +kernel)

end DeclGraph

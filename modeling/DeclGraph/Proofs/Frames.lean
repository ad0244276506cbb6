import DeclGraph.Proofs.Companions
import DeclGraph.Proofs.References
import DeclGraph.Proofs.Union

/-!
# What a merge leaves in place

A merge writes into the graph that it goes into: containers get new members, count
more issued names, and classes gain parents and companions.  Nothing of what was
there is lost or moved by this.  Every slot keeps its owner, whatever is no
container stays what it was, and a container only grows at its ends.  A container
that nothing comes into may get a companion, and that is all.

Main results:

- Theorem `Graph.Step.index`: an arrival writes into the index of one container.
- Theorem `Graph.Log.exists_class_old`: a class that was there keeps its header and
  its parents, as long as the merge goes on.
- Theorem `Graph.Log.kept`: what every slot keeps.
- Theorem `Graph.Merging.unlinked_of_not_image`: what nothing comes into stays what
  it was, but for its companion.
- Theorem `Built.merge_keeps`: the frame of a merge of built graphs.
-/

namespace DeclGraph

namespace Decl

/-- A declaration without its companion. -/
def unlinked : Decl → Decl
  | klass k => klass { k with companion := none }
  | object o => object { o with companion := none }
  | decl => decl

/-- But for its companion, a declaration is its header, its members and their index. -/
theorem unlinked_eq (decl : Decl) : decl.unlinked =
    decl.header.mapScope fun scope =>
      { scope with members := decl.memberIds, index := decl.index } := by
  cases decl <;> rfl

end Decl

namespace Graph

/-! ## Indexes -/

/-- An arrival writes into no index but that of the container in which it founds another. -/
theorem Step.index {oldSize : Nat} {g h : Graph} {a : Arrival} (hstep : Step oldSize g a h)
    (hg : Coherent g) {id : DeclId} (helsewhere : ¬ (a.fresh = true ∧ a.container = id)) :
    h.index id = g.index id := by
  have henlist : ∀ {container : DeclId} {decl : Decl}, Fits g container decl → container ≠ id →
      (g.enlist container decl).index id = g.index id := by
    intro container decl hfits hne
    rw [index_enlist hg.size_lt hfits.isContainer (hfits.exists_partner hg) hfits.index,
      if_neg (Ne.symm hne)]
  cases hstep with
  | @joined source container target decl key hkey hfound =>
      exact (sameTree_absorb g target decl false).index id
  | @founded source container decl key hkey hnew hcontainer hpackage =>
      have hne : container ≠ id := fun hsame => helsewhere ⟨rfl, hsame⟩
      rw [(sameTree_absorb _ g.nextId decl true).index]
      exact henlist (fits_newcomer hcontainer (isContainer_of_key? hkey) hnew hpackage) hne
  | copied hleaf hcontainer hnew =>
      have hne := fun hsame => helsewhere ⟨rfl, hsame⟩
      exact henlist (fits_leaf hcontainer hleaf) hne
  | dropped hleaf hold => rfl

namespace Log

variable {g other h : Graph} {plan : Renamings} {log : List Arrival}
  (hg : Coherent g) (hlog : Log g other plan log h)

include hg hlog

/-- The index of a container in which nothing gets a slot stays what it was. -/
theorem index_old {id : DeclId} (hnone : log.filterMap (Arrival.enlisted? id) = []) :
    h.index id = g.index id := by
  induction hlog with
  | start => exact (sameTree_absorb g root _ false).index id
  | @arrive log h h' parent a decl hlog hparent htarget howner hdecl hrenamed hnew hstep hsize ih =>
      have hh := hlog.coherent hg
      rw [List.filterMap_append, List.append_eq_nil_iff] at hnone
      rw [hstep.index hh, ih hnone.1]
      intro hgiven
      rcases hgiven with ⟨hfresh, hcontainer⟩
      have hlast := hnone.2
      simp [Arrival.enlisted?, hfresh, hcontainer, (hstep.effect hh hsize).target_fresh hfresh]
        at hlast

/-! ## What every slot keeps -/

/-- A class that was there keeps its trait flag and type parameters, and its parents come first. -/
theorem exists_class_old {id : DeclId} {k : ClassDecl} (hk : g.header? id = some (.klass k)) :
    ∃ k', h.header? id = some (.klass k') ∧ k'.isTrait = k.isTrait ∧ k'.tparams = k.tparams ∧
      k.parents <+: k'.parents := by
  induction hlog with
  | start =>
      have hne : id ≠ root := by
        rintro rfl
        have hkey := hg.key?_root
        rw [key?_eq_header?, hk] at hkey
        simp [Decl.key?] at hkey
      rw [header?_modify, if_neg hne]
      exact ⟨k, hk, rfl, rfl, List.prefix_refl _⟩
  | arrive hlog hparent htarget howner hdecl hrenamed hnew hstep hsize ih =>
      have hh := hlog.coherent hg
      rcases ih with ⟨before, hbefore, htrait, htparams, hparents⟩
      rcases (hstep.effect hh hsize).exists_class_kept hh hbefore with
        ⟨k', hk', htrait', htparams', hparents'⟩
      exact ⟨k', hk', htrait'.trans htrait, htparams'.trans htparams,
        hparents.trans hparents'⟩

/-- New members come after the old ones, in slots that were not there. -/
theorem exists_memberIds_old (id : DeclId) : ∃ added,
    h.memberIds id = g.memberIds id ++ added ∧ ∀ member ∈ added, g.size ≤ member.index := by
  refine ⟨_, hlog.memberIds hg id, ?_⟩
  intro member hmember
  rcases List.mem_filterMap.mp hmember with ⟨a, ha, henlisted⟩
  rw [Arrival.enlisted?] at henlisted
  split at henlisted
  · next hfresh =>
      rcases hlog.size_le_of_fresh hg ha hfresh.1 with ⟨target, htarget, hle⟩
      rw [htarget] at henlisted
      exact Option.some.inj henlisted ▸ hle
  · contradiction

/-- Where a class or object has another companion than before, it had none and the new one is in a
slot that was not there. -/
theorem companion?_old {id : DeclId} (hid : id.index < g.size) :
    h.companion? id = g.companion? id ∨
      g.companion? id = none ∧ ∃ made, h.companion? id = some made ∧ g.size ≤ made.index := by
  have hh := hlog.coherent hg
  -- A companion among the old slots is one in both graphs or in none.
  have hsame : ∀ {other : DeclId}, other.index < g.size →
      (h.companion? id = some other ↔ g.companion? id = some other) := by
    intro other hother
    rw [hh.companion?_eq_some, hg.companion?_eq_some]
    simp only [hlog.owner?_old hg hid, hlog.owner?_old hg hother, (hlog.key?_old hg hid).1,
      (hlog.key?_old hg hother).1]
  cases hbefore : g.companion? id with
  | some other =>
      rcases hg.companion?_eq_some.mp hbefore with ⟨_, _, _, _, howner, _⟩
      exact Or.inl ((hsame (hg.index_lt_of_owner? howner)).mpr hbefore)
  | none =>
      cases hafter : h.companion? id with
      | none => exact Or.inl rfl
      | some made =>
          refine Or.inr ⟨rfl, made, rfl, Nat.le_of_not_lt ?_⟩
          intro hlt
          rw [(hsame hlt).mp hafter] at hbefore
          contradiction

end Log

/-- What a merge leaves in place of a slot that was there. -/
structure Kept (g merged : Graph) (id : DeclId) : Prop where
  /-- The slot has the owner that it had. -/
  owner? : merged.owner? id = g.owner? id
  /-- What is no container stays what it was. -/
  leaf : ∀ {decl : Decl}, g.get? id = some decl → decl.key? = none → merged.get? id = some decl
  /-- A container is of the kind and has the name that it had. -/
  key? : merged.key? id = g.key? id
  /-- A class keeps the rest of its header, and new parents come after the old ones. -/
  klass : ∀ {k : ClassDecl}, g.klass? id = some k → ∃ k', merged.klass? id = some k' ∧
    k'.name = k.name ∧ k'.isTrait = k.isTrait ∧ k'.tparams = k.tparams ∧ k.parents <+: k'.parents
  /-- New members come after the old ones, in slots that were not there. -/
  memberIds : ∃ added, merged.memberIds id = g.memberIds id ++ added ∧
    ∀ member ∈ added, g.size ≤ member.index
  /-- Whatever was indexed stays indexed. -/
  lookup : ∀ {key : Key} {found : DeclId}, g.lookup id key = some found →
    merged.lookup id key = some found
  /-- No issued name is forgotten. -/
  issued : (g.issued id).toNat ≤ (merged.issued id).toNat
  /-- The companion is the one that it was, or there was none and a sibling of the same name in a
  slot that was not there is now. -/
  companion? : merged.companion? id = g.companion? id ∨
    g.companion? id = none ∧ ∃ made, merged.companion? id = some made ∧ g.size ≤ made.index ∧
      (merged.Siblings id made ∨ merged.Siblings made id)

/-- What every slot keeps as long as the merge goes on. -/
theorem Log.kept {g other h : Graph} {plan : Renamings} {log : List Arrival} (hg : Coherent g)
    (hlog : Log g other plan log h) {id : DeclId} (hid : id.index < g.size) : Kept g h id where
  owner? := hlog.owner?_old hg hid
  leaf := hlog.get?_old hg
  key? := (hlog.key?_old hg hid).1
  klass := by
    intro k hk
    have hheader : g.header? id = some (Decl.klass k).header := by
      rw [header?, klass?_eq_some_iff.mp hk, Option.map_some]
    have hkey : g.key? id = some (.klass, k.name) := key?_eq_klass_iff.mpr ⟨k, hk, rfl⟩
    rcases hlog.exists_class_old hg hheader with ⟨after, hafter, htrait, htparams, hparents⟩
    rcases exists_klass?_of_header? hafter with ⟨k', hk', htrait', htparams', hparents'⟩
    rw [← (hlog.key?_old hg hid).1] at hkey
    rcases key?_eq_klass_iff.mp hkey with ⟨found, hfound, hname⟩
    obtain rfl : k' = found := Option.some.inj (hk'.symm.trans hfound)
    exact ⟨k', hk', hname, htrait'.trans htrait, htparams'.trans htparams, hparents' ▸ hparents⟩
  memberIds := hlog.exists_memberIds_old hg id
  lookup := hlog.lookup_old hg
  issued := (hlog.issued_le hg id).1
  companion? := by
    rcases hlog.companion?_old hg hid with hsame | ⟨hnone, made, hmade, hle⟩
    · exact Or.inl hsame
    · exact Or.inr ⟨hnone, made, hmade, hle, ((hlog.coherent hg).companion?_iff id made).mp hmade⟩

/-! ## What nothing comes into -/

/-- A slot that no container becomes stays what it was, but for its companion. -/
theorem Merging.unlinked_of_not_image {g other merged : Graph} {forest : Forest}
    {log : List Arrival} (hm : Merging g other merged forest log) {id : DeclId}
    (hid : id.index < g.size) (hnever : ∀ d, (other.key? d).isSome → imageIn log d ≠ id) :
    (merged.get? id).map Decl.unlinked = (g.get? id).map Decl.unlinked := by
  have hnone := hm.filterMap_enlisted?_of_not_image hnever
  have hheader := hm.logged.header?_old hm.coherent hid
    fun a ha => hm.target_ne_of_not_image hid hnever ha
  have hmembers : merged.memberIds id = g.memberIds id := by
    rw [hm.logged.memberIds hm.coherent, hnone, List.append_nil]
  have hindex := hm.logged.index_old hm.coherent hnone
  rcases exists_get? hid with ⟨before, hbefore⟩
  rcases exists_get? (Nat.lt_of_lt_of_le hid (hm.logged.size_le hm.coherent)) with ⟨after, hafter⟩
  simp only [Graph.header?, Graph.memberIds, Graph.index, hbefore, hafter, Option.map_some,
    Option.getD_some, Option.some.injEq] at hheader hmembers hindex
  rw [hbefore, hafter, Option.map_some, Option.map_some, Decl.unlinked_eq, Decl.unlinked_eq,
    hheader, hmembers, hindex]

end Graph

open DeclGraph.Graph

/-- **The frame of a merge.**  Merging built graphs goes through, as long as there are slots for
what comes in.  It leaves in place whatever was there, and what no incoming container becomes it
changes in nothing but the companion. -/
theorem Built.merge_keeps {naming : Naming} {record otherRecord : Record} {g other : Graph}
    (hg : Built naming record g) (hother : Built naming otherRecord other)
    (hsize : ((Graph.merge other).final g).size < UInt32.size) :
    ∃ merged plan image, Graph.merge other g = .ok () merged ∧
      Transfer g other merged plan image ∧
      (∀ id : DeclId, id.index < g.size → Kept g merged id) ∧
      ∀ id : DeclId, id.index < g.size → (∀ d, (other.key? d).isSome → image d ≠ id) →
        (merged.get? id).map Decl.unlinked = (g.get? id).map Decl.unlinked := by
  rcases hg.exists_merging hother hsize with ⟨merged, forest, log, hmerge, hm⟩
  exact ⟨merged, _, _, hmerge, hm.transfer, fun id hid => hm.logged.kept hm.coherent hid,
    fun id hid hnever => hm.unlinked_of_not_image hid hnever⟩

/-- A class with a method gets an object beside it, and a class that was there gains a member. -/
theorem merge_keeps_of_new_companion : ∃ record otherRecord g other, Built issuedName record g ∧
    Built issuedName otherRecord other ∧
    ∃ merged plan image, Graph.merge other g = .ok () merged ∧
      Transfer g other merged plan image ∧
      (∀ id : DeclId, id.index < g.size → Kept g merged id) ∧
      ∀ id : DeclId, id.index < g.size → (∀ d, (other.key? d).isSome → image d ≠ id) →
        (merged.get? id).map Decl.unlinked = (g.get? id).map Decl.unlinked := by
  have hg := built_played [.klass root ⟨"C"⟩, .method ⟨1⟩ ⟨"m"⟩, .klass root ⟨"D"⟩] rfl
  have hother := built_played [.object root ⟨"C"⟩, .klass root ⟨"D"⟩, .field ⟨2⟩ ⟨"f"⟩] rfl
  exact ⟨_, _, _, _, hg, hother, Built.merge_keeps hg hother (by decide +kernel)⟩

end DeclGraph

import DeclGraph.Proofs.Protocol

/-!
# Issued names

Where classes and objects get anonymous names only from the containers that hold
them, the number of such a name is never beyond the count of its container, and
never zero.  A merge keeps it so: it shifts a number by as much as it shifts the
count.

Main results:

- Theorem `Graph.Log.namesIssued`: a merge keeps anonymous names within the counts
  of their containers.
- Theorem `Built.namesIssued`: so it is in every graph that is built under issued
  names.
- Theorem `Graph.keysApart`: members that such names keep apart stay apart when
  they are shifted.
-/

namespace DeclGraph
namespace Graph

/-- The number of every anonymous class or object was issued by its container, which counts from
one. -/
def NamesIssued (g : Graph) : Prop :=
  ∀ {container id : DeclId} {key : Key} {k : UInt32}, g.owner? id = some container →
    g.key? id = some key → key.1 ≠ .package → key.2.anonymousIndex? = some k →
    key.2 = Name.anonymous k ∧ k.toNat ≤ (g.issued container).toNat ∧ k ≠ 0

/-- Wherever a container of `other` meets one of `g`, their counts of issued names add up within 32
bits. -/
def CountsFit (g other : Graph) : Prop :=
  ∀ {id e : DeclId}, g.site other id = some e →
    (g.issued e).toNat + (other.issued id).toNat < UInt32.size

/-! ## Counts -/

theorem issued_le_of_forall {g : Graph} {n : Nat}
    (h : ∀ decl ∈ g.decls.toList, decl.issued.toNat ≤ n) (id : DeclId) :
    (g.issued id).toNat ≤ n := by
  cases hget : g.get? id with
  | none => simp [issued, hget]
  | some decl => simpa [issued, hget] using h decl (mem_decls_of_get? hget)

/-- Counts fit if they are small enough everywhere. -/
theorem countsFit_of_le {g other : Graph} (m n : Nat)
    (hg : ∀ decl ∈ g.decls.toList, decl.issued.toNat ≤ m)
    (hother : ∀ decl ∈ other.decls.toList, decl.issued.toNat ≤ n) (h : m + n < UInt32.size) :
    CountsFit g other := by
  intro id e _
  have hgLe := issued_le_of_forall hg e
  have hotherLe := issued_le_of_forall hother id
  omega

theorem issued_enlist {g : Graph} {container : DeclId} {decl : Decl} (hg : Coherent g)
    (hfits : Fits g container decl) (hissued : decl.issued = 0) (id : DeclId) :
    (g.enlist container decl).issued id = g.issued id := by
  rw [issued_eq_header?, hfits.header? hg, issued_eq_header?]
  by_cases hid : id = g.nextId
  · simp [hid, hissued, header?_nextId hg.size_lt]
  · rw [if_neg hid]

theorem issued_modify {g : Graph} {change : Decl → Decl}
    (h : ∀ decl, (change decl).issued = decl.issued) (id other : DeclId) :
    (g.modify id change).issued other = g.issued other := by
  rw [issued_eq_header?, header?_modify, issued_eq_header?]
  by_cases hother : other = id
  · simp [hother, h, Graph.header?, Function.comp_def]
  · rw [if_neg hother]

theorem issued_detach (g : Graph) (container member id : DeclId) :
    (g.detach container member).issued id = g.issued id := by
  rw [issued_eq_header?, header?_detach, ← issued_eq_header?]

theorem issued_issue {g : Graph} {container : DeclId} (h : (g.key? container).isSome)
    (hleft : (g.issued container).toNat + 1 < UInt32.size) (id : DeclId) :
    ((g.modify container (Decl.mapScope Scope.issue)).issued id).toNat =
      (g.issued id).toNat + if id = container then 1 else 0 := by
  rcases Option.isSome_iff_exists.mp h with ⟨key, hkey⟩
  rcases Option.bind_eq_some_iff.mp hkey with ⟨decl, hdecl, hdeclKey⟩
  have hissue : (decl.mapScope Scope.issue).issued = decl.issued + 1 := by
    cases decl <;> first | rfl | simp [Decl.key?] at hdeclKey
  have hcount : g.issued container = decl.issued := by simp [issued, hdecl]
  by_cases hid : id = container
  · rw [if_pos hid, hid, issued_eq_header?, header?_modify, if_pos rfl, hdecl, hcount]
    rw [hcount] at hleft
    simp only [Option.map_some, Option.getD_some, Decl.issued_header, hissue, UInt32.toNat_add]
    exact Nat.mod_eq_of_lt hleft
  · rw [if_neg hid, issued_eq_header?, header?_modify, if_neg hid, ← issued_eq_header?,
      Nat.add_zero]

end Graph

open DeclGraph.Graph

/-! ## Requests -/

/-- The names in the record were issued, and so were those that are held. -/
structure NamesKept (record : Record) (g : Graph) : Prop where
  recorded : ∀ container name, (container, name) ∈ record.issued →
    ∃ k, name = Name.anonymous k ∧ k.toNat ≤ (g.issued container).toNat ∧ k ≠ 0
  held : NamesIssued g

namespace NamesKept

variable {record record' : Record} {g g' : Graph}

theorem empty : NamesKept {} Graph.empty where
  recorded := by simp
  held := by
    intro container id key k howner
    have hlt := Coherent.empty.index_lt_of_owner? howner
    have hroot : id = root := DeclId.eq_of_index_eq (Nat.lt_one_iff.mp hlt)
    rw [hroot, Coherent.empty.owner?_root] at howner
    contradiction

/-- Where owners and keys stay and counts only grow, names stay issued. -/
private theorem held_of_le {h : Graph} (hheld : NamesIssued g)
    (howner : ∀ {id container}, h.owner? id = some container → g.owner? id = some container)
    (hkey : ∀ id, h.key? id = g.key? id)
    (hissued : ∀ id, (g.issued id).toNat ≤ (h.issued id).toNat) : NamesIssued h := by
  intro container id key k hid hidKey hkind hindex
  rw [hkey] at hidKey
  rcases hheld (howner hid) hidKey hkind hindex with ⟨hname, hle, hne⟩
  exact ⟨hname, Nat.le_trans hle (hissued container), hne⟩

/-- A request under issued names keeps names within the counts. -/
theorem outcome (hkept : NamesKept record g) (hg : Coherent g)
    (hout : Outcome issuedName record g record' g') : NamesKept record' g' := by
  cases hout with
  | found => exact hkept
  | @enlisted container decl hfits hissued hnamed =>
      have hcount := issued_enlist hg hfits hissued
      constructor
      · intro owner name hin
        rw [hcount]
        exact hkept.recorded owner name hin
      · intro owner id key k howner hkey hkind hindex
        rw [hcount]
        rw [hg.owner?_enlist] at howner
        rw [hfits.key? hg] at hkey
        by_cases hid : id = g.nextId
        · rw [if_pos hid] at howner hkey
          have hin := hnamed key.1 key.2 hkey hkind (by rw [hindex, Option.isSome_some])
          rcases hkept.recorded container key.2 hin with ⟨l, hname, hle, hne⟩
          rw [hname, Name.anonymousIndex?_anonymous] at hindex
          rw [← Option.some.inj howner, ← Option.some.inj hindex]
          exact ⟨hname, hle, hne⟩
        · rw [if_neg hid] at howner hkey
          exact hkept.held howner hkey hkind hindex
  | @edited id change hplace hissued =>
      have hsame : SameTree g (g.modify id change) := sameTree_modify fun decl _ => hplace decl
      constructor
      · intro owner name hin
        rw [issued_modify hissued]
        exact hkept.recorded owner name hin
      · refine held_of_le hkept.held (fun howner => hsame.owner? _ ▸ howner) hsame.key? ?_
        intro other
        exact Nat.le_of_eq (by rw [issued_modify hissued])
  | @issued container hcontainer hleft =>
      have hsame : SameTree g (g.modify container (Decl.mapScope Scope.issue)) :=
        sameTree_modify fun decl _ => samePlace_mapScope_issue decl
      have hcount := issued_issue hcontainer hleft
      constructor
      · intro owner name hin
        rw [hcount]
        rcases List.mem_cons.mp hin with hnow | hbefore
        · obtain ⟨rfl, rfl⟩ := Prod.mk.inj hnow
          have hnumber : (g.issued owner + 1).toNat = (g.issued owner).toNat + 1 := by
            rw [UInt32.toNat_add]
            exact Nat.mod_eq_of_lt hleft
          refine ⟨_, rfl, ?_, ?_⟩
          · exact Nat.le_of_eq (by rw [if_pos rfl, hnumber])
          · intro hzero
            rw [hzero] at hnumber
            contradiction
        · rcases hkept.recorded owner name hbefore with ⟨k, hname, hle, hne⟩
          exact ⟨k, hname, Nat.le_trans hle (Nat.le_add_right _ _), hne⟩
      · refine held_of_le hkept.held (fun howner => hsame.owner? _ ▸ howner) hsame.key? ?_
        intro other
        rw [hcount]
        exact Nat.le_add_right _ _
  | removed howner hkind =>
      constructor
      · intro owner name hin
        rw [issued_detach]
        exact hkept.recorded owner name hin
      · apply held_of_le hkept.held
        · intro id container hid
          rw [owner?_detach] at hid
          split at hid
          · contradiction
          · exact hid
        · intro id
          exact key?_detach g _ _ id
        · intro id
          exact Nat.le_of_eq (by rw [issued_detach])

end NamesKept

/-! ## Merges -/

namespace Graph

/-- The merged name of an issued name was issued by the container that it comes into: its number
is shifted by as much as the count of that container. -/
private theorem merged_issued {n l issued : UInt32} {kind : Kind} {name : Name}
    (hkind : kind ≠ .package) (hindex : (Name.merged n kind name).anonymousIndex? = some l)
    (hissued : ∀ k, name.anonymousIndex? = some k → name = Name.anonymous k ∧
      k.toNat ≤ issued.toNat ∧ k ≠ 0) :
    Name.merged n kind name = Name.anonymous l ∧
      l.toNat ≤ (Name.shiftIndex n issued).toNat ∧ l ≠ 0 := by
  have hlast := issued.toNat_lt_size
  cases hname : name.anonymousIndex? with
  | none =>
      rw [Name.merged_of_anonymousIndex?_eq_none hname, hname] at hindex
      contradiction
  | some k =>
      rcases hissued k hname with ⟨hk, hle, hne⟩
      rw [hk, Name.merged_issued_name hkind, Name.anonymousIndex?_anonymous] at hindex
      rw [hk, Name.merged_issued_name hkind, ← Option.some.inj hindex, ← UInt32.toNat_inj.ne,
        Name.toNat_shiftIndex, Name.toNat_shiftIndex, UInt32.toNat_zero]
      rw [← UInt32.toNat_inj.ne, UInt32.toNat_zero] at hne
      exact ⟨rfl, by omega, by omega⟩

/-- A merge keeps anonymous names within the counts of their containers. -/
theorem Log.namesIssued {g other h : Graph} {plan : Renamings} {log : List Arrival}
    (hg : Coherent g) (hother : Coherent other) (hlog : Log g other plan log h)
    (hkeys : KeysPlanned g other log) (hnames : NamesIssued g) (hotherNames : NamesIssued other) :
    NamesIssued h := by
  intro container id key k howner hkey hkind hindex
  by_cases hold : id.index < g.size
  · rw [hlog.owner?_old hg hold] at howner
    rw [(hlog.key?_old hg hold).1] at hkey
    rcases hnames howner hkey hkind hindex with ⟨hname, hle, hne⟩
    exact ⟨hname, Nat.le_trans hle (hlog.issued_le hg container).1, hne⟩
  · rcases hlog.exists_fresh hg (Nat.le_of_not_lt hold)
      ((hlog.coherent hg).index_lt_of_owner? howner) with ⟨a, ha, hfresh, htarget⟩
    have hne := hlog.source_ne_root_of_fresh hother ha hfresh
    rcases hlog.cases_arrival hother ha with ⟨hroot, -⟩ | ⟨-, parent, hparent, hinto, hsource⟩
    · exact absurd hroot hne
    · rw [hlog.owner?_target hg ha hne htarget] at howner
      obtain rfl := Option.some.inj howner
      rw [(hlog.key?_target hg hother ha htarget).1, hkeys a ha hne] at hkey
      rcases Option.map_eq_some_iff.mp hkey with ⟨before, hbefore, rfl⟩
      rw [hsource] at hkind hindex ⊢
      have hmerged := merged_issued hkind hindex fun l hl =>
        hotherNames hsource hbefore hkind hl
      refine ⟨hmerged.1, Nat.le_trans hmerged.2.1 ?_, hmerged.2.2⟩
      -- The container has issued what it had and what came into it.
      have hcount := (hlog.issued_le hg a.container).2 parent hparent hinto
      rw [hlog.issued_decl hparent] at hcount
      refine Nat.le_trans ?_ hcount
      rw [Name.toNat_shiftIndex, Name.toNat_shiftIndex]
      cases hsite : g.site other parent.source with
      | none =>
          simp only [Option.elim_some, offset, hsite, Option.elim_none, UInt32.toNat_zero]
          omega
      | some e =>
          have hjoined := (hlog.target_of_site hg hother hkeys hparent hsite).1
          obtain rfl := Option.some.inj (hjoined.symm.trans hinto)
          simp only [Option.elim_some, offset, hsite]
          exact Nat.le_refl _

/-- Members that issued names keep apart stay apart when they are shifted. -/
theorem keysApart {g other : Graph} (hother : Coherent other) (hnames : NamesIssued other)
    (hcounts : CountsFit g other) : KeysApart g other := by
  intro container a b key ha hb haKey hbKey
  rcases Option.map_eq_some_iff.mp haKey with ⟨⟨kind, aName⟩, haOld, rfl⟩
  rcases Option.map_eq_some_iff.mp hbKey with ⟨⟨bKind, bName⟩, hbOld, hsame⟩
  obtain ⟨rfl, hmerged⟩ := Prod.mk.inj hsame
  rw [ha, hb] at hmerged
  have hshiftable : ∀ {id : DeclId} {name : Name}, other.owner? id = some container →
      other.key? id = some (bKind, name) →
      Name.Shiftable (g.offset other container) bKind name := by
    intro id name howner hkey k hkind hindex
    rcases hnames howner hkey hkind hindex with ⟨hname, hle, -⟩
    refine ⟨hname, ?_⟩
    cases hsite : g.site other container with
    | none =>
        have hbound := k.toNat_lt_size
        simpa [offset, hsite] using hbound
    | some e =>
        have hfit := hcounts hsite
        simp only [offset, hsite, Option.elim_some]
        omega
  have hnamesEq := Name.merged_injective (hshiftable hb hbOld) (hshiftable ha haOld) hmerged
  exact hother.eq_of_key?_eq ha hb haOld (hnamesEq ▸ hbOld)

end Graph

/-- In a graph that is built under issued names, the number of an anonymous name was issued by the
container that holds it. -/
theorem Built.namesKept {record : Record} {g : Graph} (h : Built issuedName record g) :
    NamesKept record g := by
  induction h with
  | new => exact NamesKept.empty
  | request hbuilt hadmitted hrun hsize ih =>
      exact ih.outcome hbuilt.coherent (Request.outcome hbuilt.coherent hadmitted hrun)
  | merge hbuilt hother hrun hsize ih ihOther =>
      rcases hbuilt.exists_log hother hrun hsize with ⟨forest, log, -, hlog, hsources⟩
      have hkeys := hlog.keysPlanned hsources
      constructor
      · intro container name hin
        rcases ih.recorded container name hin with ⟨k, hname, hle, hne⟩
        exact ⟨k, hname, Nat.le_trans hle (hlog.issued_le hbuilt.coherent container).1, hne⟩
      · exact hlog.namesIssued hbuilt.coherent hother.coherent hkeys ih.held ihOther.held

theorem Built.namesIssued {record : Record} {g : Graph} (h : Built issuedName record g) :
    NamesIssued g :=
  h.namesKept.held

end DeclGraph

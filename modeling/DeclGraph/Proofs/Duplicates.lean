import Mathlib.Data.Finset.Max
import DeclGraph.Proofs.Insertions

/-!
# Duplicates that are taken out in any order

The methods of a container are called up one after the other, in any order and any of them
more than once, and each is taken out if another one is like it at that time.  A method that
is like others goes when it is called up for the first time, unless all the others are gone.
So of all methods of one signature the one stays that is called up last, which is one in
every order, and nothing but the members of the container and the owners of the methods that
go is changed.

Main results:

- Theorem `isLatest_concat`: which methods one more call decides about.
- Theorem `Graph.Coherent.dropDuplicate_keepMembers`: one call, in a graph that kept the latest
  of the calls before it.
- Theorem `Built.dropDuplicates_eq`: a run of calls, as one change of the graph.
- Theorem `Built.purged`: what stays and what does not when every method was called up.
-/

namespace DeclGraph

/-! ## The latest of each signature -/

/-- Is none of the methods that are like this one called up for the first time after it? What is
never called up counts as called up at the end. -/
def isLatest (entries : List (DeclId × MethodDecl)) (calls : List DeclId)
    (entry : DeclId × MethodDecl) : Bool :=
  entries.all fun other =>
    !decide (other.2.Alike entry.2) || decide (calls.idxOf other.1 ≤ calls.idxOf entry.1)

theorem isLatest_iff {entries : List (DeclId × MethodDecl)} {calls : List DeclId}
    {entry : DeclId × MethodDecl} : isLatest entries calls entry = true ↔
      ∀ other ∈ entries, other.2.Alike entry.2 → calls.idxOf other.1 ≤ calls.idxOf entry.1 := by
  simp only [isLatest, List.all_eq_true, Bool.or_eq_true, Bool.not_eq_true',
    decide_eq_false_iff_not, decide_eq_true_eq, ← imp_iff_not_or]

/-- Before any call all methods are the latest. -/
@[simp]
theorem isLatest_nil (entries : List (DeclId × MethodDecl)) (entry : DeclId × MethodDecl) :
    isLatest entries [] entry = true :=
  isLatest_iff.mpr fun _ _ _ => Nat.le_refl _

/-- The order of the first calls changes only for what is called up for the first time: it comes
before all that was not called up yet. -/
theorem idxOf_concat_le_iff {α : Type} [DecidableEq α] (calls : List α) (called a b : α) :
    (calls ++ [called]).idxOf a ≤ (calls ++ [called]).idxOf b ↔
      calls.idxOf a ≤ calls.idxOf b ∧
        (b = called → called ∉ calls → a = called ∨ a ∈ calls) := by
  have hone : ∀ x, [called].idxOf x = if x = called then 0 else 1 := by
    intro x
    by_cases hx : x = called <;> simp [hx]
  have hout : ∀ x, x ∉ calls → calls.idxOf x = calls.length := fun x => List.idxOf_eq_length_iff.mpr
  rw [List.idxOf_append, List.idxOf_append, hone, hone]
  by_cases ha : a ∈ calls <;> by_cases hb : b ∈ calls
  · grind
  · have hlt := List.idxOf_lt_length_iff.mpr ha
    have hlast := hout b hb
    grind
  · have hlt := List.idxOf_lt_length_iff.mpr hb
    have hlast := hout a ha
    grind
  · have hlast := hout a ha
    have hlast' := hout b hb
    grind

/-- Is there a method that is like this one, is another one, and was not called up yet? -/
def hasPending (entries : List (DeclId × MethodDecl)) (calls : List DeclId)
    (entry : DeclId × MethodDecl) : Prop :=
  entry.1 ∉ calls ∧ ∃ other ∈ entries, other.2.Alike entry.2 ∧ other.1 ≠ entry.1 ∧ other.1 ∉ calls

/-- One more call decides about the method that is called up, and only if it is called up for the
first time: from then on it is not the latest one if another one was not called up yet. -/
theorem isLatest_concat {entries : List (DeclId × MethodDecl)} {calls : List DeclId}
    {called : DeclId} {entry : DeclId × MethodDecl} :
    isLatest entries (calls ++ [called]) entry = true ↔
      isLatest entries calls entry = true ∧
        (entry.1 = called → ¬ hasPending entries calls entry) := by
  simp only [isLatest_iff, idxOf_concat_le_iff, hasPending]
  constructor
  · intro h
    refine ⟨fun other hother halike => (h other hother halike).1, ?_⟩
    rintro rfl ⟨hnew, other, hother, halike, hne, hpending⟩
    exact ((h other hother halike).2 rfl hnew).elim hne hpending
  · rintro ⟨hlatest, hnone⟩ other hother halike
    refine ⟨hlatest other hother halike, ?_⟩
    rintro rfl hnew
    by_contra hpending
    rw [not_or] at hpending
    exact hnone rfl ⟨hnew, other, hother, halike, hpending.1, hpending.2⟩

/-- A method that was not called up is the latest one. -/
theorem isLatest_of_not_mem {entries : List (DeclId × MethodDecl)} {calls : List DeclId}
    {entry : DeclId × MethodDecl} (h : entry.1 ∉ calls) : isLatest entries calls entry = true :=
  isLatest_iff.mpr fun _ _ _ =>
    (List.idxOf_eq_length_iff.mpr h).symm ▸ List.idxOf_le_length

/-- Two of the latest that are alike, in different slots, were both not called up. -/
theorem not_mem_of_isLatest {entries : List (DeclId × MethodDecl)} {calls : List DeclId}
    {a b : DeclId × MethodDecl} (ha : a ∈ entries) (hb : b ∈ entries)
    (haLatest : isLatest entries calls a = true) (hbLatest : isLatest entries calls b = true)
    (halike : a.2.Alike b.2) (hne : a.1 ≠ b.1) : a.1 ∉ calls ∧ b.1 ∉ calls := by
  have hsame : calls.idxOf a.1 = calls.idxOf b.1 :=
    Nat.le_antisymm (isLatest_iff.mp hbLatest a ha halike)
      (isLatest_iff.mp haLatest b hb halike.symm)
  exact ⟨fun hmem => hne ((List.idxOf_inj hmem).mp hsame),
    fun hmem => hne ((List.idxOf_inj hmem).mp hsame.symm).symm⟩

/-- Among the latest methods there is another one like this one exactly if one is pending. -/
theorem hasAlike_latest_iff {entries : List (DeclId × MethodDecl)} {calls : List DeclId}
    {entry : DeclId × MethodDecl} (hentry : entry ∈ entries)
    (hlatest : isLatest entries calls entry = true) :
    hasAlike ((entries.filter (isLatest entries calls)).filter fun other => other.1 ≠ entry.1)
      entry.2 = true ↔ hasPending entries calls entry := by
  simp only [hasAlike_iff, List.mem_filter, decide_eq_true_eq]
  constructor
  · rintro ⟨other, ⟨⟨hother, hotherLatest⟩, hne⟩, halike⟩
    obtain ⟨hpending, hnew⟩ := not_mem_of_isLatest hother hentry hotherLatest hlatest halike hne
    exact ⟨hnew, other, hother, halike, hne, hpending⟩
  · rintro ⟨hnew, other, hother, halike, hne, hpending⟩
    exact ⟨other, ⟨⟨hother, isLatest_of_not_mem hpending⟩, hne⟩, halike⟩

/-- Where every method is called up, exactly one of each signature is the latest. -/
theorem existsUnique_latest {entries : List (DeclId × MethodDecl)} {calls : List DeclId}
    (hslots : (entries.map Prod.fst).Nodup) (hcalls : ∀ entry ∈ entries, entry.1 ∈ calls)
    {entry : DeclId × MethodDecl} (hentry : entry ∈ entries) :
    ∃! kept, kept ∈ entries.filter (isLatest entries calls) ∧ kept.2.Alike entry.2 := by
  obtain ⟨kept, hkept, hmax⟩ := Finset.exists_max_image
    (entries.filter fun other => other.2.Alike entry.2).toFinset (fun other => calls.idxOf other.1)
    ⟨entry, by simpa using ⟨hentry, rfl⟩⟩
  simp only [List.mem_toFinset, List.mem_filter, decide_eq_true_eq] at hkept hmax
  have hlatest : isLatest entries calls kept = true :=
    isLatest_iff.mpr fun other hother halike => hmax other ⟨hother, halike.trans hkept.2⟩
  refine ⟨kept, ⟨List.mem_filter.mpr ⟨hkept.1, hlatest⟩, hkept.2⟩, ?_⟩
  rintro other ⟨hother, halike⟩
  obtain ⟨hother, hotherLatest⟩ := List.mem_filter.mp hother
  by_contra hne
  have hslot : other.1 ≠ kept.1 := fun hsame =>
    hne (List.inj_on_of_nodup_map hslots hother hkept.1 hsame)
  exact (not_mem_of_isLatest hother hkept.1 hotherLatest hlatest (halike.trans hkept.2.symm)
    hslot).1 (hcalls other hother)

/-- Called up from the last to the first, each one is called up before those in front of it. -/
theorem pairwise_idxOf_reverse {α : Type} [DecidableEq α] {ids : List α} (h : ids.Nodup) :
    ids.Pairwise fun a b => ids.reverse.idxOf b < ids.reverse.idxOf a := by
  induction ids with
  | nil => exact .nil
  | cons first rest ih =>
      obtain ⟨hfirst, hrest⟩ := List.nodup_cons.mp h
      have hkept : ∀ id ∈ rest,
          (first :: rest).reverse.idxOf id = rest.reverse.idxOf id := by
        intro id hid
        rw [List.reverse_cons, List.idxOf_append, if_pos (List.mem_reverse.mpr hid)]
      have hlast : (first :: rest).reverse.idxOf first = rest.length := by
        rw [List.reverse_cons, List.idxOf_append, if_neg (mt List.mem_reverse.mp hfirst),
          List.idxOf_cons_self, List.length_reverse, Nat.zero_add]
      refine List.pairwise_cons.mpr ⟨fun id hid => ?_, ?_⟩
      · rw [hkept id hid, hlast, ← List.length_reverse]
        exact List.idxOf_lt_length_iff.mpr (List.mem_reverse.mpr hid)
      · refine (ih hrest).imp_of_mem fun ha hb hlt => ?_
        rwa [hkept _ ha, hkept _ hb]

/-- Where each method is called up before those in front of it, the latest ones are the first ones
of each signature. -/
theorem filter_isLatest_eq_firsts {entries : List (DeclId × MethodDecl)} {calls : List DeclId}
    (h : entries.Pairwise fun a b => calls.idxOf b.1 < calls.idxOf a.1) :
    entries.filter (isLatest entries calls) = firsts [] entries := by
  induction entries using List.reverseRecOn with
  | nil => rfl
  | append_singleton entries last ih =>
      obtain ⟨hfront, -, hlast⟩ := List.pairwise_append.mp h
      have hbefore : ∀ entry ∈ entries, calls.idxOf last.1 < calls.idxOf entry.1 :=
        fun entry hentry => hlast entry hentry last (List.mem_singleton_self last)
      have hkept : entries.filter (isLatest (entries ++ [last]) calls) =
          entries.filter (isLatest entries calls) := by
        refine List.filter_congr fun entry hentry => ?_
        rw [Bool.eq_iff_iff, isLatest_iff, isLatest_iff, List.forall_mem_append,
          List.forall_mem_singleton]
        exact and_iff_left fun _ => Nat.le_of_lt (hbefore entry hentry)
      have hnew : isLatest (entries ++ [last]) calls last = !hasAlike entries last.2 := by
        rw [Bool.eq_iff_iff, isLatest_iff, List.forall_mem_append, List.forall_mem_singleton,
          Bool.not_eq_true', ← Bool.not_eq_true, hasAlike_iff]
        simp only [Nat.le_refl, implies_true, and_true, not_exists, not_and]
        exact forall₂_congr fun entry hentry =>
          imp_congr_right fun _ => iff_of_false (Nat.not_le.mpr (hbefore entry hentry)) id
      rw [List.filter_append, hkept, ih hfront, firsts_concat, List.nil_append,
        List.filter_singleton, hnew]
      cases hasAlike entries last.2 <;> rfl

/-! ## Keeping some of the members -/

namespace Decl

variable {decl : Decl} {keep keep' : DeclId → Bool}

/-- A change to the scope shows in what it makes of that scope. -/
theorem mapScope_congr {change change' : Scope → Scope}
    (h : ∀ scope, decl.scope? = some scope → change scope = change' scope) :
    decl.mapScope change = decl.mapScope change' := by
  cases decl <;> simp [mapScope, scope?] at h ⊢ <;> exact h

/-- Take all members out of a container but those to be kept. -/
def keepMembers (keep : DeclId → Bool) (decl : Decl) : Decl :=
  decl.mapScope fun scope => { scope with members := scope.members.filter keep }

theorem memberIds_keepMembers : (decl.keepMembers keep).memberIds = decl.memberIds.filter keep := by
  cases decl <;> rfl

theorem method?_keepMembers : (decl.keepMembers keep).method? = decl.method? := by
  cases decl <;> rfl

theorem key?_keepMembers : (decl.keepMembers keep).key? = decl.key? := by
  cases decl <;> rfl

theorem memberIds_of_scope? {scope : Scope} (h : decl.scope? = some scope) :
    decl.memberIds = scope.members := by
  rw [memberIds, h]
  rfl

/-- Only what is kept of the members matters. -/
theorem keepMembers_congr (h : ∀ id ∈ decl.memberIds, keep id = keep' id) :
    decl.keepMembers keep = decl.keepMembers keep' := by
  refine mapScope_congr fun scope hscope => ?_
  rw [memberIds_of_scope? hscope] at h
  rw [List.filter_congr h]

/-- Where all members are kept nothing changes. -/
theorem keepMembers_eq_self (h : ∀ id ∈ decl.memberIds, keep id = true) :
    decl.keepMembers keep = decl := by
  have hself : decl.mapScope id = decl := by cases decl <;> rfl
  refine (mapScope_congr fun scope hscope => ?_).trans hself
  rw [memberIds_of_scope? hscope] at h
  rw [List.filter_eq_self.mpr h, id_eq]

/-- To take out one more member is to keep the others. -/
theorem mapScope_drop_keepMembers (h : decl.memberIds.Nodup) (id : DeclId) :
    (decl.keepMembers keep).mapScope (Scope.drop · id) =
      decl.keepMembers fun other => keep other && other ≠ id := by
  have htwice : (decl.keepMembers keep).mapScope (Scope.drop · id) = decl.mapScope fun scope =>
      Scope.drop { scope with members := scope.members.filter keep } id := by
    cases decl <;> rfl
  refine htwice.trans (mapScope_congr fun scope hscope => ?_)
  rw [memberIds_of_scope? hscope] at h
  rw [Scope.drop, (h.filter keep).erase_eq_filter, List.filter_filter]
  congr 1
  refine List.filter_congr fun other _ => ?_
  rw [Bool.and_comm]
  by_cases hother : other = id <;> simp [hother]

end Decl

namespace Graph

/-- Take out of a container all members but those to be kept, and leave them without an owner. -/
def keepMembers (g : Graph) (container : DeclId) (keep : DeclId → Bool) : Graph where
  decls := (g.modify container (Decl.keepMembers keep)).decls
  owners := g.owners.mapIdx fun index owner =>
    if owner = some container && !keep (DeclId.ofIndex index) then none else owner

variable {g : Graph} {container id : DeclId} {keep : DeclId → Bool}

@[simp]
theorem size_keepMembers : (g.keepMembers container keep).size = g.size :=
  size_modify g container _

@[simp]
theorem size_owners_keepMembers :
    (g.keepMembers container keep).owners.size = g.owners.size :=
  Array.size_mapIdx

theorem get?_keepMembers (id : DeclId) : (g.keepMembers container keep).get? id =
    if id = container then (g.get? id).map (Decl.keepMembers keep) else g.get? id :=
  get?_modify g container id _

theorem owner?_keepMembers (id : DeclId) : (g.keepMembers container keep).owner? id =
    if g.owner? id = some container ∧ keep id = false then none else g.owner? id := by
  have hentry : ∀ entry : Option (Option DeclId),
      (entry.map fun owner =>
        if owner = some container && !keep (DeclId.ofIndex id.index) then none else owner).join =
          if entry.join = some container ∧ keep id = false then none else entry.join := by
    rintro (_ | owner) <;> simp
  rw [owner?, keepMembers, Array.getElem?_mapIdx]
  exact hentry _

theorem memberIds_keepMembers :
    (g.keepMembers container keep).memberIds container = (g.memberIds container).filter keep := by
  rw [memberIds, get?_keepMembers, if_pos rfl, memberIds]
  cases g.get? container with
  | none => rfl
  | some decl => exact Decl.memberIds_keepMembers

theorem method?_keepMembers (id : DeclId) :
    (g.keepMembers container keep).method? id = g.method? id := by
  rw [method?, get?_keepMembers, method?]
  split
  · cases g.get? id with
    | none => rfl
    | some decl => exact Decl.method?_keepMembers
  · rfl

theorem key?_keepMembers (id : DeclId) :
    (g.keepMembers container keep).key? id = g.key? id := by
  rw [key?, get?_keepMembers, key?]
  split
  · cases g.get? id with
    | none => rfl
    | some decl => exact Decl.key?_keepMembers
  · rfl

theorem methods_keepMembers : (g.keepMembers container keep).methods container =
    (g.methods container).filter fun entry => keep entry.1 := by
  rw [methods, memberIds_keepMembers, List.filterMap_filter, methods, List.filter_filterMap]
  refine List.filterMap_congr fun id _ => ?_
  rw [method?_keepMembers]
  cases g.method? id <;> cases hkeep : keep id <;> simp [Option.filter, hkeep]

/-- The members that are no methods stay if they are all to be kept. -/
theorem others_keepMembers (h : ∀ id, g.method? id = none → keep id = true) :
    (g.keepMembers container keep).others container = g.others container := by
  simp only [others, memberIds_keepMembers, method?_keepMembers, List.filter_filter]
  refine List.filter_congr fun id _ => ?_
  cases hmethod : g.method? id with
  | none => rw [h id hmethod]; rfl
  | some method => rfl

/-- Graphs of one size that read alike are equal. -/
theorem eq_of_reads {h : Graph} (hlt : g.size < UInt32.size) (hsize : h.size = g.size)
    (hgOwners : g.owners.size = g.size) (hhOwners : h.owners.size = g.size)
    (hget : ∀ id, h.get? id = g.get? id) (howner : ∀ id, h.owner? id = g.owner? id) : h = g := by
  have hindex : ∀ {index : Nat}, index < g.size → (DeclId.ofIndex index).index = index := by
    intro index hindex
    rw [DeclId.index_ofIndex, Nat.mod_eq_of_lt (Nat.lt_trans hindex hlt)]
  have hdecls : h.decls = g.decls := by
    refine Array.ext hsize fun index _ hslot => Option.some.inj ?_
    have hread := hget (DeclId.ofIndex index)
    rw [get?, get?, hindex hslot] at hread
    rwa [← Array.getElem?_eq_getElem, ← Array.getElem?_eq_getElem]
  have howners : h.owners = g.owners := by
    refine Array.ext (hhOwners.trans hgOwners.symm) fun index hold hslot => ?_
    have hread := howner (DeclId.ofIndex index)
    rwa [owner?, owner?, hindex (hgOwners ▸ hslot), Array.getElem?_eq_getElem hold,
      Array.getElem?_eq_getElem hslot, Option.join_some, Option.join_some] at hread
  cases g
  cases h
  exact congrArg₂ Graph.mk hdecls howners

namespace Coherent

/-- Where all members are kept nothing changes. -/
theorem keepMembers_eq_self (hg : Coherent g) (h : ∀ id ∈ g.memberIds container, keep id = true) :
    g.keepMembers container keep = g := by
  refine eq_of_reads hg.size_lt size_keepMembers hg.size_owners
    (size_owners_keepMembers.trans hg.size_owners) (fun id => ?_) (fun id => ?_)
  · rw [get?_keepMembers]
    split
    · next hid =>
        rw [← hid, memberIds] at h
        cases hdecl : g.get? id with
        | none => rfl
        | some decl =>
            rw [hdecl] at h
            exact congrArg some (Decl.keepMembers_eq_self h)
    · rfl
  · rw [owner?_keepMembers, if_neg]
    rintro ⟨howner, hkeep⟩
    rw [h id (hg.mem_memberIds.mpr howner)] at hkeep
    contradiction

/-- Only what is kept of the members matters. -/
theorem keepMembers_congr (hg : Coherent g) {keep keep' : DeclId → Bool}
    (h : ∀ id ∈ g.memberIds container, keep id = keep' id) :
    g.keepMembers container keep = g.keepMembers container keep' := by
  refine eq_of_reads (by simpa using hg.size_lt) (by simp) (by simpa using hg.size_owners)
    (by simpa using hg.size_owners) (fun id => ?_) (fun id => ?_)
  · rw [get?_keepMembers, get?_keepMembers]
    split
    · next hid =>
        rw [← hid, memberIds] at h
        cases hdecl : g.get? id with
        | none => rfl
        | some decl =>
            rw [hdecl] at h
            exact congrArg some (Decl.keepMembers_congr h)
    · rfl
  · rw [owner?_keepMembers, owner?_keepMembers]
    by_cases howner : g.owner? id = some container
    · rw [h id (hg.mem_memberIds.mpr howner)]
    · rw [if_neg fun hand => howner hand.1, if_neg fun hand => howner hand.1]

/-- To take out one more member is to keep the others. -/
theorem detach_keepMembers (hg : Coherent g) (hmember : id ∈ g.memberIds container) :
    (g.keepMembers container keep).detach container id =
      g.keepMembers container fun other => keep other && other ≠ id := by
  refine eq_of_reads (by simpa using hg.size_lt) (by simp) (by simpa using hg.size_owners)
    (by simpa using hg.size_owners) (fun other => ?_) (fun other => ?_)
  · rw [get?_detach, get?_keepMembers, get?_keepMembers]
    by_cases hother : other = container
    · have hnodup := hg.nodup_memberIds container
      rw [← hother, memberIds] at hnodup
      rw [if_pos hother, if_pos hother, if_pos hother, Option.map_map]
      cases hdecl : g.get? other with
      | none => rfl
      | some decl =>
          rw [hdecl] at hnodup
          exact congrArg some (Decl.mapScope_drop_keepMembers hnodup id)
    · rw [if_neg hother, if_neg hother, if_neg hother]
  · rw [owner?_detach, owner?_keepMembers, owner?_keepMembers]
    by_cases hother : other = id
    · subst hother
      simp [hg.mem_memberIds.mp hmember]
    · simp [hother]

/-! ## Calls -/

/-- Nothing is taken out on a call that is not for a method of the container. -/
theorem dropDuplicate_of_not_method (hcontainer : (g.key? container).isSome)
    (h : ∀ method, (id, method) ∉ g.methods container) :
    dropDuplicate container id g = .ok false g := by
  have hduplicate : g.isDuplicate container id = .ok false := by
    refine isDuplicate_eq_ok_iff.mpr ⟨fun _ => hcontainer, ?_⟩
    cases hmethod : g.method? id with
    | none => rfl
    | some method =>
        have hmember : (g.memberIds container).contains id = false := by
          rw [← Bool.not_eq_true, List.contains_iff_mem]
          exact fun hmember => h method (mem_methods_iff.mpr ⟨hmember, hmethod⟩)
        rw [Option.any_some, hmember, Bool.false_and]
  rw [dropDuplicate, Build.checked_of_ok hduplicate]
  rfl

end Coherent

/-- Is this no method of the container, or the latest of its signature? -/
def outlasts (g : Graph) (container : DeclId) (calls : List DeclId) (id : DeclId) : Bool :=
  (g.method? id).all fun method => isLatest (g.methods container) calls (id, method)

theorem outlasts_of_method? {calls : List DeclId} {method : MethodDecl}
    (h : g.method? id = some method) :
    g.outlasts container calls id = isLatest (g.methods container) calls (id, method) := by
  rw [outlasts, h, Option.all_some]

theorem outlasts_of_not_method {calls : List DeclId} (h : g.method? id = none) :
    g.outlasts container calls id = true := by
  rw [outlasts, h, Option.all_none]

/-- One more call takes out what is called up, and only a method that has another one like it. -/
theorem outlasts_concat {calls : List DeclId} {called : DeclId} :
    g.outlasts container (calls ++ [called]) id = true ↔
      g.outlasts container calls id = true ∧ ∀ method, g.method? id = some method →
        id = called → ¬ hasPending (g.methods container) calls (id, method) := by
  cases hmethod : g.method? id with
  | none => simp [outlasts_of_not_method hmethod]
  | some method =>
      rw [outlasts_of_method? hmethod, outlasts_of_method? hmethod, isLatest_concat]
      simp only [Option.some.injEq, forall_eq']

/-- Where the latest methods are kept, those are the methods. -/
theorem methods_keepMembers_outlasts (calls : List DeclId) :
    (g.keepMembers container (g.outlasts container calls)).methods container =
      (g.methods container).filter (isLatest (g.methods container) calls) := by
  rw [methods_keepMembers]
  exact List.filter_congr fun entry hentry => outlasts_of_method? (mem_methods_iff.mp hentry).2

/-- What is called up, one call after the other, is taken out if it is a duplicate then. -/
def dropDuplicates (container : DeclId) (calls : List DeclId) : Build (List Bool) :=
  calls.mapM (dropDuplicate container)

namespace Coherent

/-- One more call, in a graph that kept the latest of the calls before it, leaves the graph that
keeps the latest of all of them. -/
theorem dropDuplicate_keepMembers (hg : Coherent g) (hcontainer : (g.key? container).isSome)
    (calls : List DeclId) (called : DeclId)
    (hbefore : Coherent (g.keepMembers container (g.outlasts container calls))) :
    ∃ dropped, dropDuplicate container called
        (g.keepMembers container (g.outlasts container calls)) =
          .ok dropped (g.keepMembers container (g.outlasts container (calls ++ [called]))) := by
  by_cases hthere : ∃ method, (called, method) ∈
      (g.methods container).filter (isLatest (g.methods container) calls)
  · obtain ⟨method, hkept⟩ := hthere
    obtain ⟨hentry, hlatest⟩ := List.mem_filter.mp hkept
    obtain ⟨hmember, hmethod⟩ := mem_methods_iff.mp hentry
    rw [← methods_keepMembers_outlasts] at hkept
    rw [hbefore.dropDuplicate_eq hkept, methods_keepMembers_outlasts]
    by_cases hpending : hasPending (g.methods container) calls (called, method)
    · refine ⟨true, ?_⟩
      rw [if_pos ((hasAlike_latest_iff hentry hlatest).mpr hpending), hg.detach_keepMembers hmember]
      congr 1
      refine hg.keepMembers_congr fun id _ => ?_
      rw [Bool.eq_iff_iff, outlasts_concat, Bool.and_eq_true, decide_eq_true_eq]
      refine and_congr_right fun _ => ⟨fun hne _ _ hid => absurd hid hne, ?_⟩
      rintro hnone rfl
      exact hnone method hmethod rfl hpending
    · refine ⟨false, ?_⟩
      rw [if_neg (mt (hasAlike_latest_iff hentry hlatest).mp hpending)]
      congr 1
      refine hg.keepMembers_congr fun id _ => ?_
      rw [Bool.eq_iff_iff, outlasts_concat]
      refine (and_iff_left ?_).symm
      rintro found hfound rfl
      rwa [Option.some.inj (hfound.symm.trans hmethod)]
  · refine ⟨false, ?_⟩
    rw [dropDuplicate_of_not_method (by rwa [key?_keepMembers])]
    · congr 1
      refine hg.keepMembers_congr fun id hid => ?_
      rw [Bool.eq_iff_iff, outlasts_concat]
      refine (and_iff_left_of_imp ?_).symm
      rintro hkept method hmethod rfl
      rw [outlasts_of_method? hmethod] at hkept
      exact absurd ⟨method, List.mem_filter.mpr ⟨mem_methods_iff.mpr ⟨hid, hmethod⟩, hkept⟩⟩ hthere
    · rw [methods_keepMembers_outlasts]
      exact not_exists.mp hthere

/-- Before any call everything is kept. -/
theorem keepMembers_outlasts_nil (hg : Coherent g) :
    g.keepMembers container (g.outlasts container []) = g := by
  refine hg.keepMembers_eq_self fun id _ => ?_
  cases hmethod : g.method? id with
  | none => exact outlasts_of_not_method hmethod
  | some method => rw [outlasts_of_method? hmethod, isLatest_nil]

end Coherent
end Graph

open DeclGraph.Graph

/-! ## Runs of calls -/

namespace Built

variable {naming : Naming} {record : Record} {g : Graph} {container : DeclId}

/-- Calls, one after the other, are requests that leave the graph that keeps the latest method of
each signature. -/
theorem dropDuplicates_eq (hg : Built naming record g) (hcontainer : (g.key? container).isSome)
    (calls : List DeclId) : ∃ dropped later, dropDuplicates container calls g =
        .ok dropped (g.keepMembers container (g.outlasts container calls)) ∧
      Continued naming record g later (g.keepMembers container (g.outlasts container calls)) := by
  have hrun : ∀ (after before : List DeclId) (record' : Record),
      Continued naming record g record' (g.keepMembers container (g.outlasts container before)) →
      ∃ dropped later, dropDuplicates container after
          (g.keepMembers container (g.outlasts container before)) =
            .ok dropped (g.keepMembers container (g.outlasts container (before ++ after))) ∧
        Continued naming record g later
          (g.keepMembers container (g.outlasts container (before ++ after))) := by
    intro after
    induction after with
    | nil =>
        intro before record' hbefore
        rw [List.append_nil]
        exact ⟨[], record', rfl, hbefore⟩
    | cons called after ih =>
        intro before record' hbefore
        have hcoherent := (hbefore.built hg).coherent
        obtain ⟨first, hfirst⟩ :=
          hg.coherent.dropDuplicate_keepMembers hcontainer before called hcoherent
        have hadmitted : (Request.dropDuplicate container called).Admitted naming record'
            (g.keepMembers container (g.outlasts container before)) := trivial
        have hnext := hbefore.request hadmitted (Build.map_of_ok hfirst Answer.dropped)
          (by simpa using hg.coherent.size_lt)
        obtain ⟨others, later, hothers, hlater⟩ := ih (before ++ [called]) _ hnext
        rw [List.append_assoc, List.singleton_append] at hothers hlater
        refine ⟨first :: others, later, ?_, hlater⟩
        rw [dropDuplicates, List.mapM_cons, Build.bind_of_ok hfirst]
        exact Build.map_of_ok hothers (first :: ·)
  have hnil : g.keepMembers container (g.outlasts container []) = g :=
    hg.coherent.keepMembers_outlasts_nil
  have hstart := hrun calls [] record (by rw [hnil]; exact .here)
  rwa [hnil, List.nil_append] at hstart

end Built

/-- What becomes of a graph when methods of the container `c` are called up one after the other and
each is taken out if it is a duplicate then. -/
structure Purged (c : DeclId) (calls : List DeclId) (g h : Graph) : Prop where
  /-- Of the methods of each signature exactly one is left. -/
  methods_one : ∀ entry ∈ g.methods c,
    ∃! kept, kept ∈ h.methods c ∧ kept.2.Alike entry.2
  /-- It is the one that is called up for the first time after all the others. -/
  methods_latest : ∀ entry, entry ∈ h.methods c ↔ entry ∈ g.methods c ∧
    ∀ other ∈ g.methods c, other.2.Alike entry.2 → calls.idxOf other.1 ≤ calls.idxOf entry.1
  /-- Where each method is called up before those in front of it, it is the first one. -/
  methods_first : ((g.methods c).Pairwise fun a b => calls.idxOf b.1 < calls.idxOf a.1) →
    h.methods c = firsts [] (g.methods c)
  /-- So it is where the methods are called up from the last to the first. -/
  methods_reverse : calls = ((g.methods c).map Prod.fst).reverse →
    h.methods c = firsts [] (g.methods c)
  /-- The members that are left stand in their order. -/
  members : (h.memberIds c).Sublist (g.memberIds c)
  /-- No member is missing that is no method. -/
  others : h.others c = g.others c
  /-- Of the container nothing but the members is changed. -/
  container : h.get? c = (g.get? c).map
    (Decl.mapScope fun scope => { scope with members := h.memberIds c })
  /-- No other declaration is changed, and there are no new ones. -/
  elsewhere : h.size = g.size ∧ ∀ id, id ≠ c → h.get? id = g.get? id
  /-- No owner is changed but that of the methods that are missing. -/
  owners : h.owners.size = g.owners.size ∧ ∀ id, h.owner? id =
    if id ∈ g.memberIds c ∧ id ∉ h.memberIds c then none else g.owner? id

/-- **Duplicates are taken out in any order.**  In a built graph the methods of a container are
called up, all of them, in any order, and each is taken out if another one is like it then.  No
call is refused, and in the end there is one method of each signature; nothing else changes. -/
theorem Built.purged {naming : Naming} {record : Record} {g : Graph} {c : DeclId}
    (hg : Built naming record g) (hcontainer : (g.key? c).isSome) (calls : List DeclId)
    (hcalls : ∀ entry ∈ g.methods c, entry.1 ∈ calls) :
    ∃ dropped later h, dropDuplicates c calls g = .ok dropped h ∧
      Continued naming record g later h ∧ Purged c calls g h := by
  obtain ⟨dropped, later, hrun, hlater⟩ := hg.dropDuplicates_eq hcontainer calls
  have hfirsts : ((g.methods c).Pairwise fun a b => calls.idxOf b.1 < calls.idxOf a.1) →
      (g.keepMembers c (g.outlasts c calls)).methods c = firsts [] (g.methods c) := by
    intro hbackwards
    rw [methods_keepMembers_outlasts, filter_isLatest_eq_firsts hbackwards]
  refine ⟨dropped, later, _, hrun, hlater, ?_⟩
  constructor
  · intro entry hentry
    rw [methods_keepMembers_outlasts]
    exact existsUnique_latest (hg.coherent.nodup_methods c) hcalls hentry
  · intro entry
    rw [methods_keepMembers_outlasts, List.mem_filter, isLatest_iff]
  · exact hfirsts
  · rintro rfl
    exact hfirsts (List.pairwise_map.mp (pairwise_idxOf_reverse (hg.coherent.nodup_methods c)))
  · rw [memberIds_keepMembers]
    exact List.filter_sublist
  · exact others_keepMembers fun id => outlasts_of_not_method
  · rw [get?_keepMembers, if_pos rfl, memberIds_keepMembers, memberIds]
    cases g.get? c with
    | none => rfl
    | some decl => cases decl <;> rfl
  · exact ⟨size_keepMembers, fun id hid => by rw [get?_keepMembers, if_neg hid]⟩
  · refine ⟨size_owners_keepMembers, fun id => ?_⟩
    rw [owner?_keepMembers, memberIds_keepMembers]
    simp only [List.mem_filter, hg.coherent.mem_memberIds]
    by_cases howner : g.owner? id = some c <;> simp [howner]

/-- Three methods of one signature among other members, the middle one called up last, and calls
that are made again or are for a field. -/
theorem purged_of_middle_last : ∃ record g dropped later h, Built issuedName record g ∧
    (g.methods ⟨1⟩).map Prod.fst = [⟨2⟩, ⟨4⟩, ⟨5⟩, ⟨6⟩] ∧
    dropDuplicates ⟨1⟩ [⟨6⟩, ⟨3⟩, ⟨2⟩, ⟨6⟩, ⟨5⟩, ⟨4⟩, ⟨2⟩] g = .ok dropped h ∧
    Continued issuedName record g later h ∧ h.memberIds ⟨1⟩ = [⟨3⟩, ⟨4⟩, ⟨5⟩] ∧
    Purged ⟨1⟩ [⟨6⟩, ⟨3⟩, ⟨2⟩, ⟨6⟩, ⟨5⟩, ⟨4⟩, ⟨2⟩] g h := by
  have hg := built_played [.klass root ⟨"C"⟩, .method ⟨1⟩ ⟨"m"⟩, .field ⟨1⟩ ⟨"x"⟩,
    .method ⟨1⟩ ⟨"m"⟩, .method ⟨1⟩ ⟨"n"⟩, .method ⟨1⟩ ⟨"m"⟩] rfl
  obtain ⟨dropped, later, h, hrun, hlater, hpurged⟩ := Built.purged (c := ⟨1⟩) hg rfl
    [⟨6⟩, ⟨3⟩, ⟨2⟩, ⟨6⟩, ⟨5⟩, ⟨4⟩, ⟨2⟩] (by decide)
  refine ⟨_, _, dropped, later, h, hg, rfl, hrun, hlater, ?_, hpurged⟩
  rw [← Build.final_of_ok hrun]
  decide +kernel

end DeclGraph

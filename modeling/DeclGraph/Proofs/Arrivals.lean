import DeclGraph.Proofs.Planning

/-!
# Arrivals

A merge is a sequence of arrivals.  A container either joins the member with its
key that is there already or is founded under that key, and takes with it what it
declares of itself; everything else is copied, or dropped if it is a method that
was there before.  A log keeps the arrivals in their order, each container before
what is below it.

Main results:

- Theorem `Graph.Step.effect`: what one arrival does to a coherent graph.
- Theorem `Graph.Log.coherent`: a merge keeps a graph coherent.
- Theorem `Graph.Log.memberIds`: the members of a container are those that it had
  and then those that arrived, in order.
- Theorem `Graph.Log.owner?_old`: nothing that was there is moved.
- Theorem `Graph.Log.exists_fresh`: whatever was not there arrived.
-/

namespace DeclGraph

/-! ## What a container takes with it -/

@[simp]
theorem ClassDecl.name_absorb (k incoming : ClassDecl) (fresh : Bool) :
    (k.absorb incoming fresh).name = k.name := by
  cases fresh <;> rfl

namespace Decl

/-- Take over what an incoming container declares of itself: the header of a class, and the count
of issued names. -/
def absorb (incoming : Decl) (fresh : Bool) (decl : Decl) : Decl :=
  (match incoming with
    | klass k => decl.mapClass (ClassDecl.absorb · k fresh)
    | _ => decl).mapScope (Scope.raise · incoming.issued)

/-- What is absorbed belongs to the header. -/
theorem header_absorb (incoming : Decl) (fresh : Bool) (decl : Decl) :
    (absorb incoming fresh decl).header = absorb incoming fresh decl.header := by
  cases incoming <;> cases decl <;> cases fresh <;> rfl

/-- The counts of issued names add up. -/
theorem issued_absorb (incoming : Decl) (fresh : Bool) {decl : Decl} (h : decl.key?.isSome) :
    (absorb incoming fresh decl).issued = Name.shiftIndex decl.issued incoming.issued := by
  cases decl <;> first | cases incoming <;> cases fresh <;> rfl | simp [key?] at h

end Decl

namespace Graph

/-- Absorbing leaves a declaration in its place. -/
theorem samePlace_absorb (incoming : Decl) (fresh : Bool) (decl : Decl) :
    SamePlace (incoming.absorb fresh decl) decl := by
  constructor <;> cases incoming <;> cases decl <;> cases fresh <;> rfl

/-- Absorbing leaves the tree as it is. -/
theorem sameTree_absorb (g : Graph) (id : DeclId) (incoming : Decl) (fresh : Bool) :
    SameTree g (g.modify id (incoming.absorb fresh)) :=
  sameTree_modify fun decl _ => samePlace_absorb incoming fresh decl

/-- What is absorbed by a container is added to its count of issued names. -/
theorem issued_modify_absorb {g : Graph} {id : DeclId} (h : (g.key? id).isSome) (incoming : Decl)
    (fresh : Bool) (other : DeclId) : (g.modify id (incoming.absorb fresh)).issued other =
      if other = id then Name.shiftIndex (g.issued id) incoming.issued else g.issued other := by
  rcases Option.isSome_iff_exists.mp h with ⟨key, hkey⟩
  rcases Option.bind_eq_some_iff.mp hkey with ⟨decl, hdecl, hdeclKey⟩
  rw [issued_eq_header?, header?_modify]
  by_cases hother : other = id
  · have hsome : decl.key?.isSome := by rw [hdeclKey, Option.isSome_some]
    simp [hother, hdecl, Decl.issued_absorb _ _ hsome, issued]
  · simp [hother, issued_eq_header?]

/-! ## Steps -/

/-- A declaration that comes into a graph. -/
structure Arrival where
  /-- Its id in the graph that it comes from. -/
  source : DeclId
  /-- The declaration, under the name that it is to get. -/
  decl : Decl
  /-- The container that it comes into. -/
  container : DeclId
  /-- What it becomes, if it is not dropped. -/
  target : Option DeclId
  /-- Does it get a slot of its own? -/
  fresh : Bool

/-- Had a container a method like this declaration when there were only `oldSize` slots? -/
def HasAlike (g : Graph) (oldSize : Nat) (container : DeclId) (decl : Decl) : Prop :=
  ∃ id ∈ g.memberIds container, id.index < oldSize ∧ ∃ found method,
    g.get? id = some (.method found) ∧ decl = .method method ∧ found.Alike method

/-- One arrival. -/
inductive Step (oldSize : Nat) (g : Graph) : Arrival → Graph → Prop
  | joined {source container target : DeclId} {decl : Decl} {key : Key}
      (hkey : decl.key? = some key) (hfound : g.lookup container key = some target) :
      Step oldSize g ⟨source, decl, container, some target, false⟩
        (g.modify target (decl.absorb false))
  | founded {source container : DeclId} {decl : Decl} {key : Key}
      (hkey : decl.key? = some key) (hnew : g.lookup container key = none)
      (hcontainer : (g.key? container).isSome)
      (hpackage : key.1 = .package → g.kind? container = some .package) :
      Step oldSize g ⟨source, decl, container, some g.nextId, true⟩
        ((g.enlist container (g.newcomer container key)).modify g.nextId (decl.absorb true))
  | copied {source container : DeclId} {decl : Decl} (hleaf : decl.key? = none)
      (hcontainer : (g.key? container).isSome) (hnew : ¬ g.HasAlike oldSize container decl) :
      Step oldSize g ⟨source, decl, container, some g.nextId, true⟩ (g.enlist container decl)
  | dropped {source container : DeclId} {decl : Decl} (hleaf : decl.key? = none)
      (hold : g.HasAlike oldSize container decl) :
      Step oldSize g ⟨source, decl, container, none, false⟩ g

/-- The header of what a declaration becomes, where `before` is the header that was there. -/
def Arrival.settled (a : Arrival) (before : Option Decl) : Option Decl :=
  match a.decl.key? with
  | none => some a.decl
  | some key => (if a.fresh then some (bare key none) else before).map (a.decl.absorb a.fresh)

/-- Keys are those of containers. -/
theorem isContainer_of_key? {decl : Decl} {key : Key} (h : decl.key? = some key) :
    key.1.isContainer := by
  cases decl <;> simp [Decl.key?] at h <;> subst h <;> rfl

/-- What arrives under a key adds its count of issued names to that which was there. -/
theorem Arrival.issued_settled {a : Arrival} {before : Option Decl} {key : Key}
    (hkey : a.decl.key? = some key)
    (hbefore : a.fresh = false → ∃ old, before = some old ∧ old.key?.isSome) :
    ((a.settled before).map Decl.issued).getD 0 =
      Name.shiftIndex (if a.fresh then 0 else (before.map Decl.issued).getD 0) a.decl.issued := by
  cases hfresh : a.fresh with
  | true =>
      have hbare : (bare key none).issued = 0 := by
        rcases key with ⟨kind, name⟩
        cases kind <;> rfl
      have hbareKey : (bare key none).key?.isSome := by
        rw [key?_bare (isContainer_of_key? hkey), Option.isSome_some]
      simp [Arrival.settled, hkey, hfresh, Decl.issued_absorb _ _ hbareKey, hbare]
  | false =>
      rcases hbefore hfresh with ⟨old, rfl, hold⟩
      simp [Arrival.settled, hkey, hfresh, Decl.issued_absorb _ _ hold]

/-- What an arrival does, in terms of the views of a graph. -/
structure Effect (g : Graph) (a : Arrival) (h : Graph) : Prop where
  coherent : Coherent h
  size : h.size = g.size + a.fresh.toNat
  owner? : ∀ id, h.owner? id =
    if a.fresh ∧ id = g.nextId then some a.container else g.owner? id
  memberIds : ∀ id, h.memberIds id =
    g.memberIds id ++ if a.fresh ∧ id = a.container then [g.nextId] else []
  header? : ∀ id, h.header? id =
    if a.target = some id then a.settled (g.header? id) else g.header? id
  target_fresh : a.fresh = true → a.target = some g.nextId
  target_joined : ∀ target, a.fresh = false → a.target = some target →
    ∃ key, a.decl.key? = some key ∧ g.lookup a.container key = some target

/-- What is no container is its own header. -/
theorem get?_of_header? {g : Graph} {id : DeclId} {decl : Decl} (h : g.header? id = some decl)
    (hleaf : decl.key? = none) : g.get? id = some decl := by
  rcases Option.map_eq_some_iff.mp h with ⟨found, hfound, rfl⟩
  rw [Decl.key?_header] at hleaf
  rw [hfound, Decl.header_of_key?_eq_none hleaf]

/-- What one arrival does to a coherent graph. -/
theorem Step.effect {oldSize : Nat} {g h : Graph} {a : Arrival} (hstep : Step oldSize g a h)
    (hg : Coherent g) (hsize : h.size < UInt32.size) : Effect g a h := by
  cases hstep with
  | @joined source container target decl key hkey hfound =>
      have hsame := sameTree_absorb g target decl false
      refine
        { coherent := hsame.coherent hg
          size := by simp
          owner? := by simp
          memberIds := by simp [hsame.memberIds]
          header? := ?_
          target_fresh := by simp
          target_joined := ?_ }
      · intro id
        rw [header?_modify]
        by_cases hid : id = target
        · subst hid
          simp [Arrival.settled, hkey, Graph.header?, Decl.header_absorb, Function.comp_def]
        · simp [hid, Ne.symm hid]
      · rintro other - hother
        obtain rfl := Option.some.inj hother
        exact ⟨key, hkey, hfound⟩
  | @founded source container decl key hkey hnew hcontainer hpackage =>
      have hfits := fits_newcomer hcontainer (isContainer_of_key? hkey) hnew hpackage
      have hsame :=
        sameTree_absorb (g.enlist container (g.newcomer container key)) g.nextId decl true
      have hgrown : g.size + 1 < UInt32.size := by simpa using hsize
      refine
        { coherent := hsame.coherent (hg.enlist hfits hgrown)
          size := by simp
          owner? := by simp [hg.owner?_enlist]
          memberIds := ?_
          header? := ?_
          target_fresh := by simp
          target_joined := by simp }
      · intro id
        rw [hsame.memberIds, hfits.mem_memberIds hg]
        by_cases hid : id = container <;> simp [hid]
      · intro id
        have hold := hfits.header? hg id
        rw [header?_modify]
        by_cases hid : id = g.nextId
        · subst hid
          rw [if_pos rfl] at hold
          rcases Option.map_eq_some_iff.mp hold with ⟨made, hmade, hheader⟩
          rw [newcomer, header_bare] at hheader
          simp [Arrival.settled, hkey, hmade, Decl.header_absorb, hheader]
        · simp [hold, hid, Ne.symm hid]
  | @copied source container decl hleaf hcontainer hnew =>
      have hfits := fits_leaf hcontainer hleaf
      have hgrown : g.size + 1 < UInt32.size := by simpa using hsize
      refine
        { coherent := hg.enlist hfits hgrown
          size := by simp
          owner? := by simp [hg.owner?_enlist]
          memberIds := ?_
          header? := ?_
          target_fresh := by simp
          target_joined := by simp }
      · intro id
        rw [hfits.mem_memberIds hg]
        by_cases hid : id = container <;> simp [hid]
      · intro id
        rw [hfits.header? hg]
        by_cases hid : id = g.nextId
        · simp [hid, Arrival.settled, hleaf, Decl.header_of_key?_eq_none hleaf]
        · simp [hid, Ne.symm hid]
  | dropped hleaf hold =>
      exact
        { coherent := hg
          size := by simp
          owner? := by simp
          memberIds := by simp
          header? := by simp
          target_fresh := by simp
          target_joined := by simp }

namespace Effect

variable {g h : Graph} {a : Arrival}

/-- What arrives has the key that it came with, and nothing else gets another key. -/
theorem key? (heffect : Effect g a h) (hg : Coherent g) (id : DeclId) :
    h.key? id = if a.target = some id then a.decl.key? else g.key? id := by
  rw [key?_eq_header?, heffect.header?, key?_eq_header?]
  by_cases htarget : a.target = some id
  · rw [if_pos htarget, if_pos htarget]
    cases hkey : a.decl.key? with
    | none => simp [Arrival.settled, hkey]
    | some key =>
        cases hfresh : a.fresh with
        | true =>
            simp [Arrival.settled, hkey, hfresh, (samePlace_absorb _ _ _).key?,
              key?_bare (isContainer_of_key? hkey)]
        | false =>
            rcases heffect.target_joined id hfresh htarget with ⟨found, hfound, hlookup⟩
            obtain rfl : key = found := Option.some.inj (hkey.symm.trans hfound)
            have hold := (hg.lookup_eq_some.mp hlookup).2
            rw [key?_eq_header?] at hold
            rcases Option.bind_eq_some_iff.mp hold with ⟨old, holdHeader, holdKey⟩
            simp [Arrival.settled, hkey, hfresh, holdHeader, (samePlace_absorb _ _ _).key?, holdKey]
  · rw [if_neg htarget, if_neg htarget]

/-- What arrives is of the kind that it came with, and nothing else gets another kind. -/
theorem kind? (heffect : Effect g a h) (hg : Coherent g) (id : DeclId) :
    h.kind? id = if a.target = some id then some a.decl.kind else g.kind? id := by
  by_cases htarget : a.target = some id
  · rw [if_pos htarget]
    cases hkey : a.decl.key? with
    | none =>
        rw [kind?_eq_header?, heffect.header?, if_pos htarget]
        simp [Arrival.settled, hkey]
    | some key =>
        have hnow := heffect.key? hg id
        rw [if_pos htarget, hkey] at hnow
        rw [kind?_of_key? hnow, Decl.kind_of_key? hkey]
  · rw [kind?_eq_header?, heffect.header?, if_neg htarget, if_neg htarget, kind?_eq_header?]

/-- What arrives adds its count of issued names. -/
theorem issued (heffect : Effect g a h) (hg : Coherent g) (id : DeclId) :
    h.issued id =
      if a.target = some id then Name.shiftIndex (g.issued id) a.decl.issued else g.issued id := by
  rw [issued_eq_header?, heffect.header?, issued_eq_header?]
  by_cases htarget : a.target = some id
  · rw [if_pos htarget, if_pos htarget]
    cases hkey : a.decl.key? with
    | none =>
        have hfresh : a.fresh = true := by
          cases hcase : a.fresh with
          | true => rfl
          | false =>
              rcases heffect.target_joined id hcase htarget with ⟨key, hsome, -⟩
              rw [hkey] at hsome
              contradiction
        have hid : id = g.nextId := by
          rw [heffect.target_fresh hfresh] at htarget
          exact (Option.some.inj htarget).symm
        have hdecl : a.decl.issued = 0 := by
          cases hdecl : a.decl <;> rw [hdecl] at hkey <;> first | rfl | simp [Decl.key?] at hkey
        simp [hid, header?_nextId hg.size_lt, Arrival.settled, hkey, hdecl, Name.shiftIndex]
    | some key =>
        rw [Arrival.issued_settled hkey]
        · cases hfresh : a.fresh with
          | true =>
              rw [heffect.target_fresh hfresh] at htarget
              simp [← Option.some.inj htarget, header?_nextId hg.size_lt]
          | false => simp
        · intro hfresh
          rcases heffect.target_joined id hfresh htarget with ⟨found, -, hlookup⟩
          have hold := (hg.lookup_eq_some.mp hlookup).2
          rw [key?_eq_header?] at hold
          rcases Option.bind_eq_some_iff.mp hold with ⟨old, holdHeader, holdKey⟩
          exact ⟨old, holdHeader, by rw [holdKey, Option.isSome_some]⟩
  · rw [if_neg htarget, if_neg htarget]

/-- No slot is given up. -/
theorem size_le (heffect : Effect g a h) : g.size ≤ h.size := by
  rw [heffect.size]
  omega

/-- What arrives is owned by the container that it came into. -/
theorem owner?_target (heffect : Effect g a h) (hg : Coherent g) {id : DeclId}
    (htarget : a.target = some id) : h.owner? id = some a.container := by
  cases hfresh : a.fresh with
  | true =>
      rw [heffect.target_fresh hfresh] at htarget
      rw [heffect.owner?, if_pos ⟨hfresh, (Option.some.inj htarget).symm⟩]
  | false =>
      rw [heffect.owner?, if_neg (by simp [hfresh])]
      rcases heffect.target_joined id hfresh htarget with ⟨key, -, hlookup⟩
      exact (hg.lookup_eq_some.mp hlookup).1

/-- What arrives in a slot that was filled joins the container there. -/
theorem joined_of_lt (heffect : Effect g a h) (hg : Coherent g) {id : DeclId}
    (htarget : a.target = some id) (hid : id.index < g.size) :
    a.fresh = false ∧ ∃ key, a.decl.key? = some key ∧ g.lookup a.container key = some id := by
  cases hfresh : a.fresh with
  | true =>
      rw [heffect.target_fresh hfresh] at htarget
      rw [← Option.some.inj htarget, index_nextId hg.size_lt] at hid
      exact absurd hid (Nat.lt_irrefl _)
  | false => exact ⟨rfl, heffect.target_joined id hfresh htarget⟩

theorem key?_old (heffect : Effect g a h) (hg : Coherent g) {id : DeclId}
    (hid : id.index < g.size) : h.key? id = g.key? id := by
  rw [heffect.key? hg]
  by_cases htarget : a.target = some id
  · rcases heffect.joined_of_lt hg htarget hid with ⟨-, key, hkey, hlookup⟩
    rw [if_pos htarget, hkey, (hg.lookup_eq_some.mp hlookup).2]
  · rw [if_neg htarget]

theorem kind?_old (heffect : Effect g a h) (hg : Coherent g) {id : DeclId}
    (hid : id.index < g.size) : h.kind? id = g.kind? id := by
  rw [heffect.kind? hg]
  by_cases htarget : a.target = some id
  · rcases heffect.joined_of_lt hg htarget hid with ⟨-, key, hkey, hlookup⟩
    rw [if_pos htarget, kind?_of_key? (hg.lookup_eq_some.mp hlookup).2, Decl.kind_of_key? hkey]
  · rw [if_neg htarget]

/-- What is no container is not changed any more. -/
theorem get?_leaf (heffect : Effect g a h) (hg : Coherent g) {id : DeclId} {decl : Decl}
    (hget : g.get? id = some decl) (hleaf : decl.key? = none) : h.get? id = some decl := by
  have hheader : h.header? id = g.header? id := by
    rw [heffect.header?, if_neg]
    intro htarget
    rcases heffect.joined_of_lt hg htarget (index_lt_of_get? hget) with ⟨-, key, -, hlookup⟩
    have hkey := (hg.lookup_eq_some.mp hlookup).2
    simp [Graph.key?, hget, hleaf] at hkey
  have hold : g.header? id = some decl := by
    simp [Graph.header?, hget, Decl.header_of_key?_eq_none hleaf]
  exact get?_of_header? (hheader.trans hold) hleaf

/-- What was owned before is owned by the same container. -/
theorem owner?_old (heffect : Effect g a h) (hg : Coherent g) {id : DeclId}
    (hid : id.index < g.size) : h.owner? id = g.owner? id := by
  rw [heffect.owner?, if_neg]
  rintro ⟨-, rfl⟩
  rw [index_nextId hg.size_lt] at hid
  exact Nat.lt_irrefl _ hid

end Effect

/-- No plan renames the root. -/
theorem key?_rename_root {other : Graph} (hother : Coherent other) (plan : Renamings)
    {decl : Decl} (hdecl : other.get? root = some decl) :
    (plan.rename root decl).key? = some (.package, Name.empty) := by
  have hroot := hother.key?_root
  rw [Graph.key?, hdecl, Option.bind_some] at hroot
  cases decl <;> simp [Decl.key?] at hroot
  simp [Renamings.rename, Decl.mapTypes, Decl.key?, hroot]

/-! ## Logs -/

/-- What a merge of `other` into `g` has done so far, and the graph that it has arrived at. -/
inductive Log (g other : Graph) (plan : Renamings) : List Arrival → Graph → Prop
  | start {decl : Decl} (hdecl : other.get? root = some decl) :
      Log g other plan [⟨root, plan.rename root decl, root, some root, false⟩]
        (g.modify root ((plan.rename root decl).absorb false))
  | arrive {log : List Arrival} {h h' : Graph} {parent a : Arrival} {decl : Decl}
      (hlog : Log g other plan log h) (hparent : parent ∈ log)
      (htarget : parent.target = some a.container)
      (howner : other.owner? a.source = some parent.source)
      (hdecl : other.get? a.source = some decl) (hrenamed : a.decl = plan.rename a.source decl)
      (hnew : a.source ∉ log.map Arrival.source) (hstep : Step g.size h a h')
      (hsize : h'.size < UInt32.size) : Log g other plan (log ++ [a]) h'

/-- The new member that a container got by an arrival. -/
def Arrival.enlisted? (container : DeclId) (a : Arrival) : Option DeclId :=
  if a.fresh ∧ a.container = container then a.target else none

namespace Log

variable {g other h : Graph} {plan : Renamings} {log : List Arrival}

/-- Nothing arrives twice. -/
theorem nodup_sources (hlog : Log g other plan log h) : (log.map Arrival.source).Nodup := by
  induction hlog with
  | start => simp
  | arrive hlog hparent htarget howner hdecl hrenamed hnew hstep hsize ih =>
      rw [List.map_append, List.nodup_append]
      refine ⟨ih, by simp, ?_⟩
      rintro source hsource _ hlast rfl
      rw [List.map_singleton, List.mem_singleton] at hlast
      exact hnew (hlast ▸ hsource)

/-- Arrivals of one declaration are one arrival. -/
theorem eq_of_source_eq (hlog : Log g other plan log h) {a b : Arrival} (ha : a ∈ log)
    (hb : b ∈ log) (hsource : a.source = b.source) : a = b :=
  List.inj_on_of_nodup_map hlog.nodup_sources ha hb hsource

/-- What arrives is a declaration of the incoming graph under the name that is planned for it. -/
theorem exists_decl (hlog : Log g other plan log h) {a : Arrival} (ha : a ∈ log) :
    ∃ decl, other.get? a.source = some decl ∧ a.decl = plan.rename a.source decl := by
  induction hlog with
  | start hdecl =>
      rw [List.mem_singleton] at ha
      subst ha
      exact ⟨_, hdecl, rfl⟩
  | arrive hlog hparent htarget howner hdecl hrenamed hnew hstep hsize ih =>
      rcases List.mem_append.mp ha with hold | hlast
      · exact ih hold
      · rw [List.mem_singleton] at hlast
        subst hlast
        exact ⟨_, hdecl, hrenamed⟩

/-- Except for the root, everything arrives in what its owner became. -/
theorem exists_parent (hlog : Log g other plan log h) {a : Arrival} (ha : a ∈ log) :
    (a.source = root ∧ a.target = some root ∧ a.fresh = false) ∨
      ∃ parent ∈ log, parent.target = some a.container ∧
        other.owner? a.source = some parent.source := by
  induction hlog with
  | start =>
      rw [List.mem_singleton] at ha
      subst ha
      exact Or.inl ⟨rfl, rfl, rfl⟩
  | arrive hlog hparent htarget howner hdecl hrenamed hnew hstep hsize ih =>
      rcases List.mem_append.mp ha with hold | hlast
      · rcases ih hold with hroot | ⟨parent, hmem, hparentTarget, hparentOwner⟩
        · exact Or.inl hroot
        · exact Or.inr ⟨parent, List.mem_append_left _ hmem, hparentTarget, hparentOwner⟩
      · rw [List.mem_singleton] at hlast
        subst hlast
        exact Or.inr ⟨_, List.mem_append_left _ hparent, htarget, howner⟩

/-- The root has arrived before everything else. -/
theorem exists_root (hlog : Log g other plan log h) :
    ∃ a ∈ log, a.source = root ∧ a.target = some root ∧ a.fresh = false := by
  induction hlog with
  | start => exact ⟨_, List.mem_singleton.mpr rfl, rfl, rfl, rfl⟩
  | arrive hlog hparent htarget howner hdecl hrenamed hnew hstep hsize ih =>
      rcases ih with ⟨a, ha, hroot⟩
      exact ⟨a, List.mem_append_left _ ha, hroot⟩

/-- Every container becomes something. -/
theorem exists_target (hlog : Log g other plan log h) {a : Arrival} (ha : a ∈ log)
    (hkey : a.decl.key?.isSome) : ∃ target, a.target = some target := by
  induction hlog with
  | start =>
      rw [List.mem_singleton] at ha
      subst ha
      exact ⟨root, rfl⟩
  | arrive hlog hparent _ howner hdecl hrenamed hnew hstep hsize ih =>
      rcases List.mem_append.mp ha with hold | hlast
      · exact ih hold
      · rw [List.mem_singleton] at hlast
        subst hlast
        cases hstep with
        | joined => exact ⟨_, rfl⟩
        | founded => exact ⟨_, rfl⟩
        | copied => exact ⟨_, rfl⟩
        | dropped hleaf hold => simp [hleaf] at hkey

/-- What gets a slot of its own is not the root. -/
theorem source_ne_root_of_fresh (hother : Coherent other) (hlog : Log g other plan log h)
    {a : Arrival} (ha : a ∈ log) (hfresh : a.fresh = true) : a.source ≠ root := by
  rcases hlog.exists_parent ha with ⟨-, -, hjoined⟩ | ⟨parent, -, -, howner⟩
  · rw [hjoined] at hfresh
    contradiction
  · exact hother.ne_root_of_owner? howner

variable (hg : Coherent g) (hlog : Log g other plan log h)

include hg hlog

/-- A merge keeps a graph coherent. -/
theorem coherent : Coherent h := by
  induction hlog with
  | start => exact (sameTree_absorb g root _ false).coherent hg
  | arrive hlog hparent htarget howner hdecl hrenamed hnew hstep hsize ih =>
      exact (hstep.effect ih hsize).coherent

theorem size_le : g.size ≤ h.size := by
  induction hlog with
  | start => simp
  | arrive hlog hparent htarget howner hdecl hrenamed hnew hstep hsize ih =>
      exact Nat.le_trans ih (hstep.effect (hlog.coherent hg) hsize).size_le

/-- Nothing that was there is moved. -/
theorem owner?_old {id : DeclId} (hid : id.index < g.size) : h.owner? id = g.owner? id := by
  induction hlog with
  | start => rfl
  | arrive hlog hparent htarget howner hdecl hrenamed hnew hstep hsize ih =>
      have heffect := hstep.effect (hlog.coherent hg) hsize
      rw [heffect.owner?_old (hlog.coherent hg) (Nat.lt_of_lt_of_le hid (hlog.size_le hg)), ih]

/-- The members of a container are those that it had and then those that arrived, in order. -/
theorem memberIds (id : DeclId) :
    h.memberIds id = g.memberIds id ++ log.filterMap (Arrival.enlisted? id) := by
  induction hlog with
  | start =>
      simp [(sameTree_absorb g root _ false).memberIds, Arrival.enlisted?]
  | arrive hlog hparent htarget howner hdecl hrenamed hnew hstep hsize ih =>
      have heffect := hstep.effect (hlog.coherent hg) hsize
      rw [heffect.memberIds, ih, List.filterMap_append, List.append_assoc]
      congr 2
      rename_i a decl
      by_cases hmember : a.fresh = true ∧ id = a.container
      · simp [Arrival.enlisted?, hmember.1, hmember.2, heffect.target_fresh hmember.1]
      · have hother : ¬ (a.fresh = true ∧ a.container = id) :=
          fun hne => hmember ⟨hne.1, hne.2.symm⟩
        simp [Arrival.enlisted?, hmember, hother]

/-- Containers that were there keep their keys, and everything keeps its kind. -/
theorem key?_old {id : DeclId} (hid : id.index < g.size) :
    h.key? id = g.key? id ∧ h.kind? id = g.kind? id := by
  induction hlog with
  | start =>
      have hsame := sameTree_absorb g root
      exact ⟨(hsame _ false).key? id, (hsame _ false).kind? id⟩
  | arrive hlog hparent htarget howner hdecl hrenamed hnew hstep hsize ih =>
      have heffect := hstep.effect (hlog.coherent hg) hsize
      have hlt := Nat.lt_of_lt_of_le hid (hlog.size_le hg)
      rw [heffect.key?_old (hlog.coherent hg) hlt, heffect.kind?_old (hlog.coherent hg) hlt]
      exact ih

/-- What is found in the index before the merge is found in it later. -/
theorem lookup_old {container id : DeclId} {key : Key} (hid : g.lookup container key = some id) :
    h.lookup container key = some id := by
  rcases hg.lookup_eq_some.mp hid with ⟨howner, hkey⟩
  have hlt := index_lt_of_key? hkey
  refine (hlog.coherent hg).lookup_eq_some.mpr ⟨?_, ?_⟩
  · rw [hlog.owner?_old hg hlt, howner]
  · rw [(hlog.key?_old hg hlt).1, hkey]

/-- A slot that was not there was filled by an arrival. -/
theorem exists_fresh {id : DeclId} (hnew : g.size ≤ id.index) (hlt : id.index < h.size) :
    ∃ a ∈ log, a.fresh = true ∧ a.target = some id := by
  induction hlog with
  | start =>
      rw [size_modify] at hlt
      omega
  | @arrive log h h' parent a decl hlog hparent htarget howner hdecl hrenamed hnew hstep hsize ih =>
      have heffect := hstep.effect (hlog.coherent hg) hsize
      by_cases hold : id.index < h.size
      · rcases ih hold with ⟨b, hb, hbFresh⟩
        exact ⟨b, List.mem_append_left _ hb, hbFresh⟩
      · rw [heffect.size] at hlt
        cases hfresh : a.fresh with
        | false =>
            rw [hfresh, Bool.toNat_false] at hlt
            omega
        | true =>
            rw [hfresh, Bool.toNat_true] at hlt
            have hid : id = h.nextId := by
              apply DeclId.eq_of_index_eq
              rw [index_nextId (hlog.coherent hg).size_lt]
              omega
            refine ⟨a, List.mem_append_right _ (List.mem_singleton.mpr rfl), hfresh, ?_⟩
            rw [hid, heffect.target_fresh hfresh]

/-- What gets a slot of its own gets one that was not there. -/
theorem size_le_of_fresh {a : Arrival} (ha : a ∈ log) (hfresh : a.fresh = true) :
    ∃ target, a.target = some target ∧ g.size ≤ target.index := by
  induction hlog with
  | start =>
      rw [List.mem_singleton] at ha
      subst ha
      contradiction
  | arrive hlog hparent htarget howner hdecl hrenamed hnew hstep hsize ih =>
      rcases List.mem_append.mp ha with hold | hlast
      · exact ih hold
      · rw [List.mem_singleton] at hlast
        subst hlast
        have heffect := hstep.effect (hlog.coherent hg) hsize
        refine ⟨_, heffect.target_fresh hfresh, ?_⟩
        rw [index_nextId (hlog.coherent hg).size_lt]
        exact hlog.size_le hg

/-- What was there and is no container stays what it was. -/
theorem get?_old {id : DeclId} {decl : Decl} (hget : g.get? id = some decl)
    (hleaf : decl.key? = none) : h.get? id = some decl := by
  induction hlog with
  | start =>
      have hne : id ≠ root := by
        rintro rfl
        have hkey := hg.key?_root
        simp [Graph.key?, hget, hleaf] at hkey
      rw [get?_modify, if_neg hne, hget]
  | arrive hlog hparent htarget howner hdecl hrenamed hnew hstep hsize ih =>
      exact (hstep.effect (hlog.coherent hg) hsize).get?_leaf (hlog.coherent hg) ih hleaf

/-- What arrives and is no container stays what it arrived as. -/
theorem get?_leaf (hother : Coherent other) {a : Arrival} (ha : a ∈ log)
    (hleaf : a.decl.key? = none) {target : DeclId} (htarget : a.target = some target) :
    h.get? target = some a.decl := by
  induction hlog with
  | @start decl hdecl =>
      rw [List.mem_singleton] at ha
      subst ha
      rw [key?_rename_root hother plan hdecl] at hleaf
      contradiction
  | arrive hlog hparent _ howner hdecl hrenamed hnew hstep hsize ih =>
      have heffect := hstep.effect (hlog.coherent hg) hsize
      rcases List.mem_append.mp ha with hold | hlast
      · exact heffect.get?_leaf (hlog.coherent hg) (ih hold) hleaf
      · rw [List.mem_singleton] at hlast
        subst hlast
        have hheader := heffect.header? target
        rw [if_pos htarget, Arrival.settled, hleaf] at hheader
        exact get?_of_header? hheader hleaf

/-- What arrives is of the kind and has the key that it came with. -/
theorem key?_target (hother : Coherent other) {a : Arrival} (ha : a ∈ log) {target : DeclId}
    (htarget : a.target = some target) :
    h.key? target = a.decl.key? ∧ h.kind? target = some a.decl.kind := by
  induction hlog with
  | @start decl hdecl =>
      rw [List.mem_singleton] at ha
      subst ha
      obtain rfl := Option.some.inj htarget
      have hsame := sameTree_absorb g root (plan.rename root decl) false
      have hkey := key?_rename_root hother plan hdecl
      rw [hsame.key?, hsame.kind?, hg.key?_root, kind?_of_key? hg.key?_root, hkey,
        Decl.kind_of_key? hkey]
      exact ⟨rfl, rfl⟩
  | arrive hlog hparent _ howner hdecl hrenamed hnew hstep hsize ih =>
      have heffect := hstep.effect (hlog.coherent hg) hsize
      rcases List.mem_append.mp ha with hold | hlast
      · have hkind := (ih hold).2
        have hlt := index_lt_of_kind? hkind
        rw [heffect.key?_old (hlog.coherent hg) hlt, heffect.kind?_old (hlog.coherent hg) hlt]
        exact ih hold
      · rw [List.mem_singleton] at hlast
        subst hlast
        rw [heffect.key? (hlog.coherent hg), heffect.kind? (hlog.coherent hg), if_pos htarget,
          if_pos htarget]
        exact ⟨rfl, rfl⟩

/-- Except for the root, what arrives is owned by the container that it came into. -/
theorem owner?_target {a : Arrival} (ha : a ∈ log) (hne : a.source ≠ root) {target : DeclId}
    (htarget : a.target = some target) : h.owner? target = some a.container := by
  induction hlog with
  | start =>
      rw [List.mem_singleton] at ha
      subst ha
      exact absurd rfl hne
  | arrive hlog hparent _ howner hdecl hrenamed hnew hstep hsize ih =>
      have heffect := hstep.effect (hlog.coherent hg) hsize
      rcases List.mem_append.mp ha with hold | hlast
      · have howned := ih hold
        rw [heffect.owner?_old (hlog.coherent hg)
          ((hlog.coherent hg).index_lt_of_owner? howned), howned]
      · rw [List.mem_singleton] at hlast
        subst hlast
        exact heffect.owner?_target (hlog.coherent hg) htarget

/-- A container has had a method like this one before the merge as long as the merge goes on. -/
theorem hasAlike_iff {container : DeclId} {decl : Decl} :
    h.HasAlike g.size container decl ↔ g.HasAlike g.size container decl := by
  have hmem : ∀ id, id.index < g.size →
      (id ∈ h.memberIds container ↔ id ∈ g.memberIds container) := by
    intro id hid
    rw [(hlog.coherent hg).mem_memberIds, hg.mem_memberIds, hlog.owner?_old hg hid]
  constructor
  · intro hgiven
    rcases hgiven with ⟨id, hid, hlt, found, method, hfound, hdecl, halike⟩
    refine ⟨id, (hmem id hlt).mp hid, hlt, found, method, ?_, hdecl, halike⟩
    rcases exists_get? hlt with ⟨old, hold⟩
    have hkind := (hlog.key?_old hg hlt).2
    rw [Graph.kind?, hfound, Graph.kind?, hold] at hkind
    have hleaf : old.key? = none := by
      cases old <;> first | rfl | simp [Decl.kind] at hkind
    rw [hlog.get?_old hg hold hleaf] at hfound
    rw [hold, hfound]
  · intro hgiven
    rcases hgiven with ⟨id, hid, hlt, found, method, hfound, hdecl, halike⟩
    exact ⟨id, (hmem id hlt).mpr hid, hlt, found, method, hlog.get?_old hg hfound rfl, hdecl,
      halike⟩

/-- What is no container is dropped exactly if it was there before the merge, and otherwise gets a
slot of its own. -/
theorem target_eq_none_iff (hother : Coherent other) {a : Arrival} (ha : a ∈ log)
    (hleaf : a.decl.key? = none) :
    (a.target = none ↔ g.HasAlike g.size a.container a.decl) ∧
      (a.fresh = false ↔ a.target = none) := by
  induction hlog with
  | start hdecl =>
      rw [List.mem_singleton] at ha
      subst ha
      rw [key?_rename_root hother plan hdecl] at hleaf
      contradiction
  | arrive hlog hparent _ howner hdecl hrenamed hsource hstep hsize ih =>
      rcases List.mem_append.mp ha with hold | hlast
      · exact ih hold
      · rw [List.mem_singleton] at hlast
        subst hlast
        rw [← hlog.hasAlike_iff hg]
        cases hstep with
        | joined hkey => simp [hleaf] at hkey
        | founded hkey => simp [hleaf] at hkey
        | copied _ _ hnew => simpa using hnew
        | dropped _ hold => simpa using hold

end Log

end Graph
end DeclGraph

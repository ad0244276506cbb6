import DeclGraph.Proofs.Frames
import DeclGraph.Proofs.IndexScan
import DeclGraph.Proofs.IssuedNames

/-!
# Graphs that are built further

Whoever builds a graph keeps ids while the building goes on, and merges and removals may
come in between.  An id goes on to stand for what it stood for, and whatever a container
had found, it finds again.  The one thing that a declaration can lose is its owner, and
only a method that is taken out loses it.

Main results:

- Theorem `Graph.Grown.outcome` and Theorem `Graph.Grown.merge`: what a request and a
  merge leave as it was.
- Theorem `Graph.Grown.trans`: what two runs leave as it was, they leave so one after the
  other.
- Theorem `Continued.grown`: what a run of any length leaves as it was.
- Theorem `Built.lasting`: ids, lookups and links last from any point of a run to any
  later one.
-/

namespace DeclGraph

open DeclGraph.Graph

/-! ## Runs that go on -/

/-- The second graph is built from the first one by further requests and merges. -/
inductive Continued (naming : Naming) (record : Record) (g : Graph) : Record → Graph → Prop
  | here : Continued naming record g record g
  | request {record' : Record} {g' g'' : Graph} {request : Request} {answer : Answer}
      (hbefore : Continued naming record g record' g')
      (hadmitted : request.Admitted naming record' g')
      (hrun : request.perform g' = .ok answer g'') (hsize : g''.size < UInt32.size) :
      Continued naming record g (record'.after request answer) g''
  | merge {record' otherRecord : Record} {g' other g'' : Graph}
      (hbefore : Continued naming record g record' g')
      (hother : Built naming otherRecord other) (hrun : Graph.merge other g' = .ok () g'')
      (hsize : g''.size < UInt32.size) : Continued naming record g record' g''

/-- What is built further from a built graph is built. -/
theorem Continued.built {naming : Naming} {record record' : Record} {g g' : Graph}
    (hg : Built naming record g) (h : Continued naming record g record' g') :
    Built naming record' g' := by
  induction h with
  | here => exact hg
  | request _ hadmitted hrun hsize ih => exact ih.request hadmitted hrun hsize
  | merge _ hother hrun hsize ih => exact ih.merge hother hrun hsize

/-- Building goes on from where it came to. -/
theorem Continued.trans {naming : Naming} {record record' record'' : Record} {g g' g'' : Graph}
    (hfirst : Continued naming record g record' g')
    (hsecond : Continued naming record' g' record'' g'') :
    Continued naming record g record'' g'' := by
  induction hsecond with
  | here => exact hfirst
  | request _ hadmitted hrun hsize ih => exact ih.request hadmitted hrun hsize
  | merge _ hother hrun hsize ih => exact ih.merge hother hrun hsize

namespace Graph

/-! ## What is left as it was -/

/-- The graph `h` has all that is in `g`, except that the methods in `removed` were taken out. -/
structure Grown (removed : List DeclId) (g h : Graph) : Prop where
  /-- No slot is given up. -/
  size_le : g.size ≤ h.size
  /-- Every slot keeps its kind. -/
  kind? : ∀ {id : DeclId}, id.index < g.size → h.kind? id = g.kind? id
  /-- Every container keeps its name. -/
  key? : ∀ {id : DeclId}, id.index < g.size → h.key? id = g.key? id
  /-- Whatever was not taken out keeps its owner, and gets none if it has none. -/
  owner? : ∀ {id : DeclId}, id.index < g.size → id ∉ removed → h.owner? id = g.owner? id
  /-- Only methods are taken out, and they are without an owner then. -/
  takenOut : ∀ id ∈ removed, h.kind? id = some .method ∧ h.owner? id = none
  /-- Members that were not taken out stay in front. -/
  memberIds : ∀ container,
    (g.memberIds container).filter (fun id => id ∉ removed) <+: h.memberIds container
  /-- No count of issued names goes down. -/
  issued : ∀ container, (g.issued container).toNat ≤ (h.issued container).toNat

namespace Grown

variable {g h k : Graph}

theorem refl (g : Graph) : Grown [] g g where
  size_le := Nat.le_refl _
  kind? := fun _ => rfl
  key? := fun _ => rfl
  owner? := fun _ _ => rfl
  takenOut := by simp
  memberIds := fun container => by simp
  issued := fun _ => Nat.le_refl _

/-- What two runs leave as it was, they leave so one after the other. -/
theorem trans {removed later : List DeclId} (hfirst : Grown removed g h)
    (hsecond : Grown later h k) : Grown (later ++ removed) g k where
  size_le := Nat.le_trans hfirst.size_le hsecond.size_le
  kind? := fun hid => by
    rw [hsecond.kind? (Nat.lt_of_lt_of_le hid hfirst.size_le), hfirst.kind? hid]
  key? := fun hid => by
    rw [hsecond.key? (Nat.lt_of_lt_of_le hid hfirst.size_le), hfirst.key? hid]
  owner? := fun hid hnot => by
    rw [List.mem_append, not_or] at hnot
    rw [hsecond.owner? (Nat.lt_of_lt_of_le hid hfirst.size_le) hnot.1, hfirst.owner? hid hnot.2]
  takenOut := by
    intro id hid
    by_cases hlater : id ∈ later
    · exact hsecond.takenOut id hlater
    · obtain ⟨hkind, howner⟩ :=
        hfirst.takenOut id ((List.mem_append.mp hid).resolve_left hlater)
      have hlt := index_lt_of_kind? hkind
      exact ⟨(hsecond.kind? hlt).trans hkind, (hsecond.owner? hlt hlater).trans howner⟩
  memberIds := by
    intro container
    have hsplit : (g.memberIds container).filter (fun id => id ∉ later ++ removed) =
        ((g.memberIds container).filter fun id => id ∉ removed).filter fun id => id ∉ later := by
      rw [List.filter_filter]
      congr 1
      funext id
      simp
    rw [hsplit]
    exact ((hfirst.memberIds container).filter _).trans (hsecond.memberIds container)
  issued := fun container => Nat.le_trans (hfirst.issued container) (hsecond.issued container)

/-- Where the tree is the same and no count goes down, all is left as it was. -/
theorem of_sameTree (hsame : SameTree g h)
    (hissued : ∀ container, (g.issued container).toNat ≤ (h.issued container).toNat) :
    Grown [] g h where
  size_le := Nat.le_of_eq hsame.size.symm
  kind? := fun _ => hsame.kind? _
  key? := fun _ => hsame.key? _
  owner? := fun _ _ => hsame.owner? _
  takenOut := by simp
  memberIds := fun container => by simp [hsame.memberIds]
  issued := hissued

/-- A new member comes into a new slot and to the end of its container. -/
theorem enlist (hg : Coherent g) {container : DeclId} {decl : Decl} (hfits : Fits g container decl)
    (hissued : decl.issued = 0) : Grown [] g (g.enlist container decl) := by
  have hold : ∀ {id : DeclId}, id.index < g.size → id ≠ g.nextId :=
    ne_nextId_of_lt hg.size_lt
  exact {
    size_le := by simp
    kind? := fun hid => by rw [hfits.kind? hg, if_neg (hold hid)]
    key? := fun hid => by rw [hfits.key? hg, if_neg (hold hid)]
    owner? := fun hid _ => by rw [hg.owner?_enlist, if_neg (hold hid)]
    takenOut := by simp
    memberIds := fun id => by
      rw [hfits.mem_memberIds hg]
      split <;> simp [*]
    issued := fun id => Nat.le_of_eq (by rw [issued_enlist hg hfits hissued]) }

/-- A method that is taken out loses its owner and its place among the members. -/
theorem detach (hg : Coherent g) {container member : DeclId}
    (howner : g.owner? member = some container) (hkind : g.kind? member = some .method) :
    Grown [member] g (g.detach container member) where
  size_le := by simp
  kind? := fun _ => kind?_detach g container member _
  key? := fun _ => key?_detach g container member _
  owner? := fun _ hnot => by rw [owner?_detach, if_neg (by simpa using hnot)]
  takenOut := by
    intro id hid
    obtain rfl := List.mem_singleton.mp hid
    rw [kind?_detach, owner?_detach, if_pos rfl]
    exact ⟨hkind, rfl⟩
  memberIds := by
    intro id
    have hfilter : (g.memberIds id).filter (fun other => other ∉ [member]) =
        (g.memberIds id).erase member := by
      rw [(hg.nodup_memberIds id).erase_eq_filter]
      congr 1
      funext other
      simp [bne, BEq.beq]
    rw [hfilter, memberIds_detach]
    split
    · exact List.prefix_refl _
    · next hne =>
        -- The method is a member of its own container only.
        have habsent : member ∉ g.memberIds id := by
          rw [hg.mem_memberIds, howner]
          exact fun hsame => hne (Option.some.inj hsame).symm
        simp [List.erase_of_not_mem habsent]
  issued := fun id => Nat.le_of_eq (by rw [issued_detach])

/-- What a request leaves as it was. -/
theorem outcome {naming : Naming} {record record' : Record} (hg : Coherent g)
    (hout : Outcome naming record g record' h) :
    ∃ removed, record'.removed = removed ++ record.removed ∧ Grown removed g h := by
  cases hout with
  | found => exact ⟨[], rfl, refl g⟩
  | enlisted hfits hissued => exact ⟨[], rfl, enlist hg hfits hissued⟩
  | edited hplace hissued =>
      exact ⟨[], rfl, of_sameTree (sameTree_modify fun decl _ => hplace decl) fun container =>
        Nat.le_of_eq (by rw [issued_modify hissued])⟩
  | issued hcontainer hleft =>
      refine ⟨[], rfl, of_sameTree (sameTree_modify fun decl _ => samePlace_mapScope_issue decl)
        fun container => ?_⟩
      rw [issued_issue hcontainer hleft]
      exact Nat.le_add_right _ _
  | removed howner hkind => exact ⟨[_], rfl, detach hg howner hkind⟩

/-- What a merge leaves as it was. -/
theorem merge {other : Graph} {plan : Renamings} {log : List Arrival} (hg : Coherent g)
    (hlog : Log g other plan log h) : Grown [] g h where
  size_le := hlog.size_le hg
  kind? := fun hid => (hlog.key?_old hg hid).2
  key? := fun hid => (hlog.key?_old hg hid).1
  owner? := fun hid _ => hlog.owner?_old hg hid
  takenOut := by simp
  memberIds := by
    intro container
    obtain ⟨added, hmembers, -⟩ := hlog.exists_memberIds_old hg container
    rw [hmembers]
    simp
  issued := fun container => (hlog.issued_le hg container).1

end Grown
end Graph

/-- What a run of any length leaves as it was. -/
theorem Continued.grown {naming : Naming} {record record' : Record} {g g' : Graph}
    (hg : Built naming record g) (h : Continued naming record g record' g') :
    ∃ removed, record'.removed = removed ++ record.removed ∧ Grown removed g g' := by
  induction h with
  | here => exact ⟨[], rfl, Grown.refl g⟩
  | request hbefore hadmitted hrun hsize ih =>
      obtain ⟨removed, hremoved, hgrown⟩ := ih
      have hcoherent := (hbefore.built hg).coherent
      obtain ⟨later, hlater, hstep⟩ :=
        Grown.outcome hcoherent (Request.outcome hcoherent hadmitted hrun)
      exact ⟨later ++ removed, by rw [hlater, hremoved, List.append_assoc], hgrown.trans hstep⟩
  | merge hbefore hother hrun hsize ih =>
      obtain ⟨removed, hremoved, hgrown⟩ := ih
      have hbuilt := hbefore.built hg
      obtain ⟨_, _, -, hlog, -⟩ := hbuilt.exists_log hother hrun hsize
      exact ⟨removed, hremoved, hgrown.trans (Grown.merge hbuilt.coherent hlog)⟩

/-! ## What callers can rely on -/

/-- Whatever was answered about `g` is answered about `h`, except that the methods in `removed` are
without an owner and no members any more. -/
structure Lasting (removed : List DeclId) (g h : Graph) : Prop where
  /-- Every slot keeps its kind, and every container its name. -/
  decl : ∀ {id : DeclId} {decl : Decl}, g.get? id = some decl → ∃ decl', h.get? id = some decl' ∧
    decl'.kind = decl.kind ∧ (decl.isContainer = true → decl'.name? = decl.name?)
  /-- Every slot keeps its owner, unless it was taken out. -/
  owner : ∀ {id : DeclId}, id.index < g.size → id ∉ removed → h.owner? id = g.owner? id
  /-- What was taken out is a method without an owner. -/
  takenOut : ∀ id ∈ removed, (h.method? id).isSome ∧ h.owner? id = none
  /-- Whatever is without an owner stays without one. -/
  unowned : ∀ {id : DeclId}, id.index < g.size → g.owner? id = none → h.owner? id = none
  /-- A companion stays the companion. -/
  companion : ∀ {id other : DeclId}, g.companion? id = some other → h.companion? id = some other
  /-- Whatever was found is found again. -/
  found : ∀ {kind : Kind} {container : DeclId} {name : Name} {id : DeclId},
    g.find? kind container name = .ok (some id) → h.find? kind container name = .ok (some id)
  /-- Whoever asks for a package that was found gets it, and the graph stays as it is. -/
  package : ∀ {container : DeclId} {name : Name} {id : DeclId},
    g.find? .package container name = .ok (some id) → ensurePackage container name h = .ok id h
  /-- Whoever asks for a class that was found gets it, and the graph stays as it is. -/
  klass : ∀ {container : DeclId} {name : Name} {id : DeclId},
    g.find? .klass container name = .ok (some id) → ensureClass container name h = .ok id h
  /-- Whoever asks for an object that was found gets it, and the graph stays as it is. -/
  object : ∀ {container : DeclId} {name : Name} {id : DeclId},
    g.find? .object container name = .ok (some id) → ensureObject container name h = .ok id h
  /-- The members that were not taken out are the first members, in their order. -/
  members : ∀ {container : DeclId} {ids : List DeclId}, g.members container = .ok ids →
    ∃ ids', h.members container = .ok ids' ∧ ids.filter (fun id => id ∉ removed) <+: ids'
  /-- No count of issued names goes down. -/
  issued : ∀ {container : DeclId} {scope : Scope}, g.scope container = .ok scope →
    ∃ scope', h.scope container = .ok scope' ∧ scope.issued ≤ scope'.issued

/-- Containers with one key have one name. -/
theorem Decl.name?_of_key?_eq {decl decl' : Decl} (hcontainer : decl.isContainer = true)
    (hkey : decl'.key? = decl.key?) : decl'.name? = decl.name? := by
  cases decl <;> first | contradiction | (cases decl' <;> simp_all [Decl.key?, Decl.name?])

namespace Graph

/-- What is found is indexed, and what is indexed is found. -/
theorem Coherent.find?_eq_some_iff_lookup {g : Graph} (hg : Coherent g) {kind : Kind}
    {container : DeclId} {name : Name} {id : DeclId} :
    g.find? kind container name = .ok (some id) ↔ g.lookup container (kind, name) = some id := by
  rw [find?_eq_ok_iff]
  constructor
  · rintro ⟨-, hlookup⟩
    exact hlookup.symm
  · intro hlookup
    exact ⟨hg.isSome_key?_of_owner? (hg.lookup_eq_some.mp hlookup).1, hlookup.symm⟩

/-- Whoever asks for a container that is there gets it, and the graph stays as it is. -/
theorem ensured_of_lookup {g : Graph} {container id : DeclId} {key : Key}
    (h : g.lookup container key = some id) : g.ensured container key = (id, g) := by
  simp [ensured, h]

namespace Grown

variable {removed : List DeclId} {g h : Graph} (hgrown : Grown removed g h) (hg : Coherent g)
  (hh : Coherent h)

include hgrown

theorem isSome_key? {id : DeclId} (hid : (g.key? id).isSome) : (h.key? id).isSome := by
  obtain ⟨key, hkey⟩ := Option.isSome_iff_exists.mp hid
  rwa [hgrown.key? (index_lt_of_key? hkey)]

/-- Whatever is without an owner stays without one. -/
theorem unowned {id : DeclId} (hlt : id.index < g.size) (hnone : g.owner? id = none) :
    h.owner? id = none := by
  by_cases hid : id ∈ removed
  · exact (hgrown.takenOut id hid).2
  · rw [hgrown.owner? hlt hid, hnone]

/-- A container that was owned is owned by the same container: nothing but methods is taken out. -/
theorem owner?_of_key? {id container : DeclId} {key : Key} (hkey : g.key? id = some key)
    (howner : g.owner? id = some container) : h.owner? id = some container := by
  have hlt := index_lt_of_key? hkey
  have hnot : id ∉ removed := by
    intro hin
    have hmethod := key?_of_method (hgrown.takenOut id hin).1
    rw [hgrown.key? hlt, hkey] at hmethod
    contradiction
  rw [hgrown.owner? hlt hnot, howner]

include hg hh

/-- What was indexed stays indexed. -/
theorem lookup {container : DeclId} {key : Key} {id : DeclId}
    (hid : g.lookup container key = some id) : h.lookup container key = some id := by
  obtain ⟨howner, hkey⟩ := hg.lookup_eq_some.mp hid
  refine hh.lookup_eq_some.mpr ⟨hgrown.owner?_of_key? hkey howner, ?_⟩
  rw [hgrown.key? (index_lt_of_key? hkey), hkey]

/-- A companion stays the companion. -/
theorem companion? {id other : DeclId} (hother : g.companion? id = some other) :
    h.companion? id = some other := by
  obtain ⟨container, key, partner, howner, howner', hkey, hpartner, hkey'⟩ :=
    hg.companion?_eq_some.mp hother
  refine hh.companion?_eq_some.mpr ⟨container, key, partner, hgrown.owner?_of_key? hkey howner,
    hgrown.owner?_of_key? hkey' howner', ?_, hpartner, ?_⟩
  · rw [hgrown.key? (index_lt_of_key? hkey), hkey]
  · rw [hgrown.key? (index_lt_of_key? hkey'), hkey']

/-- What is found is found again, and in a container that is one already. -/
theorem found {kind : Kind} {container : DeclId} {name : Name} {id : DeclId}
    (hfind : g.find? kind container name = .ok (some id)) :
    (h.key? container).isSome ∧ h.lookup container (kind, name) = some id := by
  have hlookup := hgrown.lookup hg hh (hg.find?_eq_some_iff_lookup.mp hfind)
  exact ⟨hh.isSome_key?_of_owner? (hh.lookup_eq_some.mp hlookup).1, hlookup⟩

/-- What is left as it was is answered as before. -/
theorem answers : Lasting removed g h where
  decl := by
    intro id decl hdecl
    have hlt := index_lt_of_get? hdecl
    obtain ⟨decl', hdecl'⟩ := exists_get? (Nat.lt_of_lt_of_le hlt hgrown.size_le)
    have hkind : decl'.kind = decl.kind := by
      simpa [Graph.kind?, hdecl, hdecl'] using hgrown.kind? hlt
    have hkey : decl'.key? = decl.key? := by
      simpa [Graph.key?, hdecl, hdecl'] using hgrown.key? hlt
    exact ⟨decl', hdecl', hkind, fun hcontainer => Decl.name?_of_key?_eq hcontainer hkey⟩
  owner := hgrown.owner?
  takenOut := fun id hid =>
    ⟨isSome_method?_iff.mpr (hgrown.takenOut id hid).1, (hgrown.takenOut id hid).2⟩
  unowned := hgrown.unowned
  companion := hgrown.companion? hg hh
  found := fun hfind => hh.find?_eq_some_iff_lookup.mpr (hgrown.found hg hh hfind).2
  package := by
    intro container name id hfind
    obtain ⟨-, hlookup⟩ := hgrown.found hg hh hfind
    obtain ⟨howner, hkey⟩ := hh.lookup_eq_some.mp hlookup
    rw [ensurePackage_eq (hh.package_owner howner (kind?_of_key? hkey)), ensured_of_lookup hlookup]
  klass := by
    intro container name id hfind
    obtain ⟨hcontainer, hlookup⟩ := hgrown.found hg hh hfind
    rw [ensureClass_eq hcontainer, ensured_of_lookup hlookup]
  object := by
    intro container name id hfind
    obtain ⟨hcontainer, hlookup⟩ := hgrown.found hg hh hfind
    rw [ensureObject_eq hcontainer, ensured_of_lookup hlookup]
  members := by
    intro container ids hids
    obtain ⟨hcontainer, rfl⟩ := members_eq_ok_iff.mp hids
    exact ⟨h.memberIds container, members_eq_ok_iff.mpr ⟨hgrown.isSome_key? hcontainer, rfl⟩,
      hgrown.memberIds container⟩
  issued := by
    intro container scope hscope
    have hcontainer := isSome_key?_of_scope hscope
    obtain ⟨old, hold, -, hissued, -⟩ := exists_scope hcontainer
    obtain ⟨scope', hscope', -, hissued', -⟩ := exists_scope (hgrown.isSome_key? hcontainer)
    obtain rfl : scope = old := Except.ok.inj (hscope.symm.trans hold)
    refine ⟨scope', hscope', UInt32.le_iff_toNat_le.mpr ?_⟩
    rw [← hissued, ← hissued']
    exact hgrown.issued container

end Grown
end Graph

/-- **Ids, lookups and links last.**  Whatever is built on top of a built graph, by requests and
merges in any order, every slot keeps its kind and every container its name; only the methods that
were taken out lose their owner; companions stay; what was found is found again, and is what a
request for it is answered with; members keep their order; and no count of issued names goes
down. -/
theorem Built.lasting {naming : Naming} {record record' : Record} {g g' : Graph}
    (hg : Built naming record g) (hlater : Continued naming record g record' g') :
    ∃ removed, record'.removed = removed ++ record.removed ∧ Lasting removed g g' := by
  obtain ⟨removed, hremoved, hgrown⟩ := hlater.grown hg
  exact ⟨removed, hremoved, hgrown.answers hg.coherent (hlater.built hg).coherent⟩

/-- A class with two methods of one name loses one of them, and a merge brings an object beside
it. -/
theorem lasting_of_companion : ∃ record record' g g', Built issuedName record g ∧
    Continued issuedName record g record' g' ∧ record'.removed = [⟨3⟩] ∧
    ∃ removed, record'.removed = removed ++ record.removed ∧ Lasting removed g g' := by
  have hg := built_played [.klass root ⟨"C"⟩, .method ⟨1⟩ ⟨"m"⟩, .method ⟨1⟩ ⟨"m"⟩] rfl
  have hother := built_played [.object root ⟨"C"⟩] rfl
  generalize hplayed : played [.klass root ⟨"C"⟩, .method ⟨1⟩ ⟨"m"⟩, .method ⟨1⟩ ⟨"m"⟩] rfl =
    state at hg
  have hdrop : (Request.dropDuplicate ⟨1⟩ ⟨3⟩).perform state.2 =
      .ok (.dropped true) (state.2.detach ⟨1⟩ ⟨3⟩) := by
    rw [← hplayed]
    rfl
  have hsize : (state.2.detach ⟨1⟩ ⟨3⟩).size < UInt32.size := by
    rw [← hplayed]
    decide +kernel
  have hlater : Continued issuedName state.1 state.2
      (state.1.after (.dropDuplicate ⟨1⟩ ⟨3⟩) (.dropped true)) (state.2.detach ⟨1⟩ ⟨3⟩) :=
    .request .here True.intro hdrop hsize
  obtain ⟨merged, _, _, hmerge, -⟩ := (hlater.built hg).merge_keeps hother (by
    rw [← hplayed]
    decide +kernel)
  have hmerged := hlater.merge hother hmerge (by
    rw [← Build.final_of_ok hmerge, ← hplayed]
    decide +kernel)
  refine ⟨_, _, _, _, hg, hmerged, ?_, Built.lasting hg hmerged⟩
  rw [← hplayed]
  rfl

end DeclGraph

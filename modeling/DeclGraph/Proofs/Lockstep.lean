import Mathlib.Data.Set.Defs
import DeclGraph.Proofs.Alongside
import DeclGraph.Proofs.Conflation

/-!
# Requests in lockstep

The same requests are made in a graph and in one that has it on top of a base.  As
long as they stay below packages that the base does not have, they are answered
alike, and what they build has grown alongside: a request cannot tell on which of
the two graphs it runs.

Main results:

- Theorem `Graph.Alongside.perform`: what a request does below such packages, it
  does alongside.
- Theorem `Graph.Alongside.exists_perform`: what is granted on top of the base is
  granted without it.
-/

namespace DeclGraph

open DeclGraph.Graph

/-! ## Requests with other ids -/

/-- An edit of a class that leaves its name, its members and its companion alone, and does not look
at what the ids in it are. -/
structure ClassDecl.EditedInPlace (change : ClassDecl → ClassDecl) : Prop where
  kept : ∀ k, (change k).name = k.name ∧ (change k).scope = k.scope ∧
    (change k).companion = k.companion
  renumber : ∀ f, Function.Injective f → ∀ k, (change k).renumber f = change (k.renumber f)

/-- An edit of an object that leaves its name, its members and its companion alone. -/
def ObjectDecl.EditedInPlace (change : ObjectDecl → ObjectDecl) : Prop :=
  ∀ o, (change o).name = o.name ∧ (change o).scope = o.scope ∧ (change o).companion = o.companion

/-- An object is nothing but its name, its members and its companion. -/
theorem ObjectDecl.EditedInPlace.eq {change : ObjectDecl → ObjectDecl}
    (h : ObjectDecl.EditedInPlace change) (o : ObjectDecl) : change o = o := by
  obtain ⟨hname, hscope, hcompanion⟩ := h o
  cases hchanged : change o
  cases o
  simp_all

namespace Request

/-- The same request about other ids. -/
def renumber (f : DeclId → DeclId) : Request → Request
  | package container name => package (f container) name
  | klass container name => klass (f container) name
  | object container name => object (f container) name
  | field container name => field (f container) name
  | method container name => method (f container) name
  | comment container text => comment (f container) text
  | issueName container => issueName (f container)
  | dropDuplicate container id => dropDuplicate (f container) (f id)
  | editClass id change => editClass (f id) change
  | editObject id change => editObject (f id) change
  | editField id change => editField (f id) change
  | editMethod id change => editMethod (f id) change

/-- Does the request mention declarations of the graph only, and does it ask of the root for nothing
but a package with one of the names? -/
def Below (names : Set Name) (g : Graph) : Request → Prop
  | package container name => container.index < g.size ∧ (container = root → name ∈ names)
  | klass container _ | object container _ | field container _ | method container _
  | comment container _ | issueName container => container.index < g.size ∧ container ≠ root
  | dropDuplicate container id =>
      (container.index < g.size ∧ container ≠ root) ∧ id.index < g.size
  | editClass id change => (id.index < g.size ∧ id ≠ root) ∧ ClassDecl.EditedInPlace change
  | editObject id change => (id.index < g.size ∧ id ≠ root) ∧ ObjectDecl.EditedInPlace change
  | editField id _ | editMethod id _ => id.index < g.size ∧ id ≠ root

/-- Under any names such a request may be made. -/
theorem Below.admitted {names : Set Name} {g : Graph} {request : Request}
    (h : request.Below names g) (record : Record) : request.Admitted anyName record g := by
  cases request with
  | klass => exact fun _ => trivial
  | object => exact fun _ => trivial
  | editClass => exact h.2.kept
  | editObject => exact h.2
  | _ => trivial

theorem admitted_renumber {record record' : Record} {g h : Graph} {request : Request}
    (hadmitted : request.Admitted anyName record g) (f : DeclId → DeclId) :
    (request.renumber f).Admitted anyName record' h := by
  cases request with
  | klass => exact fun _ => trivial
  | object => exact fun _ => trivial
  | editClass => exact hadmitted
  | editObject => exact hadmitted
  | _ => trivial

theorem wanted?_renumber {request : Request} {c : DeclId} {key : Key}
    (h : request.wanted? = some (c, key)) (f : DeclId → DeclId) :
    (request.renumber f).wanted? = some (f c, key) := by
  cases request <;> simp_all [renumber, wanted?]

theorem added?_renumber {request : Request} {c : DeclId} {decl : Decl}
    (h : request.added? = some (c, decl)) (f : DeclId → DeclId) :
    (request.renumber f).added? = some (f c, decl) := by
  cases request <;> simp_all [renumber, added?]

end Request

/-- The same answer with another id. -/
def Answer.renumber (f : DeclId → DeclId) : Answer → Answer
  | id declared => id (f declared)
  | answer => answer

namespace Graph

/-- What is found or made is below the root. -/
theorem Coherent.index_ensured_lt {g : Graph} (hg : Coherent g) (c : DeclId) (key : Key) :
    (g.ensured c key).1.index < (g.ensured c key).2.size ∧ (g.ensured c key).1 ≠ root := by
  unfold ensured
  cases hlookup : g.lookup c key with
  | some id =>
      have howner := (hg.lookup_eq_some.mp hlookup).1
      exact ⟨hg.index_lt_of_owner? howner, hg.ne_root_of_owner? howner⟩
  | none =>
      rw [size_enlist, index_nextId hg.size_lt]
      exact ⟨Nat.lt_succ_self _, (ne_nextId_of_key? hg.size_lt hg.key?_root).symm⟩

/-! ## Packages of a script -/

/-- The root has issued no names and has only packages with the given names. -/
structure Packaged (names : Set Name) (g : Graph) : Prop where
  issued : g.issued root = 0
  package : ∀ id ∈ g.memberIds root, ∃ name ∈ names, g.key? id = some (.package, name)

namespace Packaged

variable {names : Set Name} {g : Graph}

theorem empty (names : Set Name) : Packaged names Graph.empty where
  issued := issued_empty root
  package := by
    intro id hid
    rw [memberIds_empty] at hid
    contradiction

variable (h : Packaged names g) (hg : Coherent g)

include h hg

/-- What the root has, it has under a name of the script. -/
theorem exists_of_lookup {key : Key} (hkey : (g.lookup root key).isSome) :
    ∃ name ∈ names, key = (.package, name) := by
  obtain ⟨id, hid⟩ := Option.isSome_iff_exists.mp hkey
  obtain ⟨howner, hidKey⟩ := hg.lookup_eq_some.mp hid
  obtain ⟨name, hname, hpackage⟩ := h.package id (hg.mem_memberIds.mpr howner)
  exact ⟨name, hname, Option.some.inj (hidKey.symm.trans hpackage)⟩

/-- The root has no package with another name. -/
theorem lookup_eq_none {name : Name} (hname : name ∉ names) :
    g.lookup root (.package, name) = none := by
  rw [← Option.not_isSome_iff_eq_none]
  intro hfound
  obtain ⟨found, hheld, hsame⟩ := h.exists_of_lookup hg hfound
  rw [(Prod.mk.inj hsame).2] at hname
  exact hname hheld

/-- A root that has none of the packages has nothing under the keys that are there. -/
theorem apart {base : Graph} (hfree : ∀ name ∈ names, base.lookup root (.package, name) = none)
    (key : Key) (hkey : (g.lookup root key).isSome) : base.lookup root key = none := by
  obtain ⟨name, hname, rfl⟩ := h.exists_of_lookup hg hkey
  exact hfree name hname

theorem enlist {c : DeclId} {decl : Decl} (hfits : Fits g c decl) (hissued : decl.issued = 0)
    (hnamed : c = root → ∃ name ∈ names, decl.key? = some (.package, name)) :
    Packaged names (g.enlist c decl) where
  issued := by rw [issued_enlist hg hfits hissued, h.issued]
  package := by
    have hold : ∀ id ∈ g.memberIds root,
        ∃ name ∈ names, (g.enlist c decl).key? id = some (.package, name) := by
      intro id hid
      obtain ⟨name, hname, hkey⟩ := h.package id hid
      exact ⟨name, hname, by rw [hfits.key? hg, if_neg (ne_nextId_of_key? hg.size_lt hkey), hkey]⟩
    intro id hid
    rw [hfits.mem_memberIds hg] at hid
    by_cases hc : root = c
    · subst hc
      rw [if_pos rfl, List.mem_append, List.mem_singleton] at hid
      obtain hid | rfl := hid
      · exact hold id hid
      · obtain ⟨name, hname, hkey⟩ := hnamed rfl
        exact ⟨name, hname, by rw [hfits.key? hg, if_pos rfl, hkey]⟩
    · rw [if_neg hc] at hid
      exact hold id hid

omit hg in
theorem modify {d : DeclId} (hd : d ≠ root) {change : Decl → Decl}
    (hplace : ∀ decl, SamePlace (change decl) decl) : Packaged names (g.modify d change) where
  issued := by rw [Graph.issued, get?_modify, if_neg hd.symm, ← Graph.issued, h.issued]
  package := by
    have hsame : SameTree g (g.modify d change) := sameTree_modify fun decl _ => hplace decl
    intro id hid
    rw [hsame.memberIds] at hid
    rw [hsame.key?]
    exact h.package id hid

omit hg in
theorem detach {c : DeclId} (hc : c ≠ root) (member : DeclId) :
    Packaged names (g.detach c member) where
  issued := by rw [issued_detach, h.issued]
  package := by
    intro id hid
    rw [memberIds_detach, if_neg hc.symm] at hid
    rw [key?_detach]
    exact h.package id hid

theorem ensured {c : DeclId} {key : Key} (hcontainer : (g.key? c).isSome)
    (hkind : key.1.isContainer) (hpackage : key.1 = .package → g.kind? c = some .package)
    (hnamed : c = root → ∃ name ∈ names, key = (.package, name)) :
    Packaged names (g.ensured c key).2 := by
  unfold Graph.ensured
  cases hlookup : g.lookup c key with
  | some id => exact h
  | none =>
      apply h.enlist hg (fits_newcomer hcontainer hkind hlookup hpackage)
      · obtain ⟨kind, name⟩ := key
        cases kind <;> rfl
      · intro hroot
        obtain ⟨name, hname, rfl⟩ := hnamed hroot
        exact ⟨name, hname, rfl⟩

end Packaged

/-! ## Requests alongside -/

/-- The request goes through on top of the base, alongside one that led to `g'`: it is answered
alike, the root of `g'` has packages with the names only, and what was answered is below it. -/
structure Matched (names : Set Name) (base h : Graph) (build : Build Answer) (answer : Answer)
    (g' : Graph) : Prop where
  packaged : Packaged names g'
  known : ∀ id, answer = .id id → id.index < g'.size ∧ id ≠ root
  whole : ∃ h', build h = .ok (answer.renumber (onTop base)) h' ∧ Alongside base g' h'

namespace Alongside

section Perform

variable {names : Set Name} {base g h : Graph} (halong : Alongside base g h)
  (hpackaged : Packaged names g) (hg : Coherent g) (hh : Coherent h)

include halong hpackaged hg hh

/-- A container is found or made alongside. -/
private theorem matched_ensure (hbase : Coherent base)
    (hfree : ∀ name ∈ names, base.lookup root (.package, name) = none) {request : Request}
    {c : DeclId} {key : Key} (hwanted : request.wanted? = some (c, key))
    (hnamed : c = root → ∃ name ∈ names, key = (.package, name)) {answer : Answer} {g' : Graph}
    (hrun : request.perform g = .ok answer g') :
    Matched names base h (request.renumber (onTop base)).perform answer g' := by
  obtain ⟨⟨hcontainer, hpackage⟩, rfl, rfl⟩ := (Request.perform_wanted_iff hwanted).mp hrun
  have hkind := Request.isContainer_of_wanted? hwanted
  have hroot : c = root → key.1 = .package ∧ base.lookup root key = none := by
    intro hisRoot
    obtain ⟨name, hname, rfl⟩ := hnamed hisRoot
    exact ⟨rfl, hfree name hname⟩
  obtain ⟨hid, hgrown⟩ := halong.ensured hbase hg hh (hpackaged.apart hg hfree) hcontainer hkind
    hpackage hroot
  obtain ⟨cKey, hcKey⟩ := Option.isSome_iff_exists.mp hcontainer
  have hkey := halong.key?_onTop hg hh (index_lt_of_key? hcKey)
  have hdone := (Request.perform_wanted_iff (Request.wanted?_renumber hwanted (onTop base))).mpr
    ⟨⟨by rwa [hkey], fun h => kind?_package_of_key?_eq hkey (hpackage h)⟩, rfl, rfl⟩
  rw [hid] at hdone
  refine ⟨hpackaged.ensured hg hcontainer hkind hpackage hnamed, ?_, _, hdone, hgrown⟩
  rintro id hanswer
  obtain rfl := Answer.id.inj hanswer
  exact hg.index_ensured_lt c key

/-- A field, a method or a comment is added alongside. -/
private theorem matched_add {request : Request} {c : DeclId} {decl : Decl}
    (hadded : request.added? = some (c, decl)) (hc : c ≠ root) {answer : Answer} {g' : Graph}
    (hrun : request.perform g = .ok answer g') :
    Matched names base h (request.renumber (onTop base)).perform answer g' := by
  obtain ⟨hcontainer, rfl, rfl⟩ := (Request.perform_added_iff hadded).mp hrun
  have hleaf := Request.key?_of_added? hadded
  obtain ⟨hthere, hgrown⟩ := halong.enlist_leaf hh hg hcontainer hleaf
  have hdone := (Request.perform_added_iff (Request.added?_renumber hadded (onTop base))).mpr
    ⟨hthere, rfl, rfl⟩
  rw [← halong.onTop_nextId hg hh] at hdone
  refine ⟨hpackaged.enlist hg (fits_leaf hcontainer hleaf) ?_ (absurd · hc), ?_, _, hdone, hgrown⟩
  · cases decl <;> first | rfl | simp [Decl.key?] at hleaf
  · rintro id hanswer
    obtain rfl := Answer.id.inj hanswer
    rw [size_enlist, index_nextId hg.size_lt]
    exact ⟨Nat.lt_succ_self _, (ne_nextId_of_key? hg.size_lt hg.key?_root).symm⟩

omit hg in
/-- A declaration below the root is edited alongside. -/
private theorem matched_edit {d : DeclId} (hd : d.index < g.size ∧ d ≠ root) {change : Decl → Decl}
    (hplace : ∀ decl, SamePlace (change decl) decl)
    (hchange : ∀ decl, (change decl).renumber (onTop base) = change (decl.renumber (onTop base)))
    {answer : Answer} {g' : Graph}
    (hrun : ((fun _ => Answer.edited) <$> Build.update (Graph.modify · d change)) g =
      .ok answer g') :
    Matched names base h
      ((fun _ => Answer.edited) <$> Build.update (Graph.modify · (onTop base d) change))
      answer g' := by
  obtain ⟨_, hasked, rfl⟩ := Build.exists_of_map_eq_ok hrun
  obtain ⟨-, rfl⟩ := EStateM.Result.ok.inj hasked
  exact ⟨hpackaged.modify hd.2 hplace, nofun, _, rfl, halong.modify hh hd.2 hd.1 hchange⟩

/-- What a request does below the packages of a script, it does alongside. -/
theorem perform (hbase : Coherent base)
    (hfree : ∀ name ∈ names, base.lookup root (.package, name) = none) {request : Request}
    (hbelow : request.Below names g) {answer : Answer} {g' : Graph}
    (hrun : request.perform g = .ok answer g') :
    Matched names base h (request.renumber (onTop base)).perform answer g' := by
  cases request with
  | package container name =>
      exact halong.matched_ensure hpackaged hg hh hbase hfree rfl
        (fun hroot => ⟨name, hbelow.2 hroot, rfl⟩) hrun
  | klass container name | object container name =>
      exact halong.matched_ensure hpackaged hg hh hbase hfree rfl (absurd · hbelow.2) hrun
  | field container name | method container name | comment container text =>
      exact halong.matched_add hpackaged hg hh rfl hbelow.2 hrun
  | issueName container =>
      obtain ⟨name, hasked, rfl⟩ := Build.exists_of_map_eq_ok hrun
      obtain ⟨h', hdone, hgrown⟩ := halong.issueName hg hh hbelow.2 hasked
      obtain ⟨-, -, -, rfl⟩ := exists_of_issueName hasked
      exact ⟨hpackaged.modify hbelow.2 samePlace_mapScope_issue, nofun, h',
        Build.map_of_ok hdone _, hgrown⟩
  | dropDuplicate container id =>
      obtain ⟨dropped, hasked, rfl⟩ := Build.exists_of_map_eq_ok hrun
      obtain ⟨h', hdone, hgrown⟩ :=
        halong.dropDuplicate hg hh hbelow.1.2 hbelow.1.1 hbelow.2 hasked
      refine ⟨?_, nofun, h', Build.map_of_ok hdone _, hgrown⟩
      obtain ⟨-, rfl⟩ | ⟨-, -, -, rfl⟩ := exists_of_dropDuplicate hg hasked
      · exact hpackaged
      · exact hpackaged.detach hbelow.1.2 id
  | editClass id change =>
      have hchange : ∀ decl : Decl, (decl.mapClass change).renumber (onTop base) =
          (decl.renumber (onTop base)).mapClass change := by
        intro decl
        cases decl with
        | klass k => exact congrArg Decl.klass (hbelow.2.renumber _ (onTop_injective base) k)
        | _ => rfl
      exact halong.matched_edit hpackaged hh hbelow.1
        (fun decl => (samePlace_mapClass hbelow.2.kept decl).1) hchange hrun
  | editObject id change =>
      have hchange : ∀ decl : Decl, (decl.mapObject change).renumber (onTop base) =
          (decl.renumber (onTop base)).mapObject change := by
        intro decl
        cases decl with
        | object o => simp only [Decl.mapObject, Decl.renumber, hbelow.2.eq]
        | _ => rfl
      exact halong.matched_edit hpackaged hh hbelow.1
        (fun decl => (samePlace_mapObject hbelow.2 decl).1) hchange hrun
  | editField id change =>
      exact halong.matched_edit hpackaged hh hbelow
        (fun decl => (samePlace_mapField change decl).1) (fun decl => by cases decl <;> rfl) hrun
  | editMethod id change =>
      exact halong.matched_edit hpackaged hh hbelow
        (fun decl => (samePlace_mapMethod change decl).1) (fun decl => by cases decl <;> rfl) hrun

end Perform

/-- What is granted on top of the base is granted without it. -/
theorem exists_perform {names : Set Name} {base g h : Graph} (halong : Alongside base g h)
    (hg : Coherent g) (hh : Coherent h) {request : Request} (hbelow : request.Below names g)
    {answer : Answer} {h' : Graph}
    (hrun : (request.renumber (onTop base)).perform h = .ok answer h') :
    ∃ answer g', request.perform g = .ok answer g' := by
  have hcontainer : ∀ {c : DeclId}, c.index < g.size → (h.key? (onTop base c)).isSome →
      (g.key? c).isSome := by
    intro c hc hthere
    rwa [← halong.key?_onTop hg hh hc]
  have hwanted : ∀ {c : DeclId} {key : Key}, request.wanted? = some (c, key) → c.index < g.size →
      ∃ answer g', request.perform g = .ok answer g' := by
    intro c key hwanted hc
    obtain ⟨⟨hthere, hpackage⟩, -⟩ :=
      (Request.perform_wanted_iff (Request.wanted?_renumber hwanted _)).mp hrun
    have hkey := (halong.key?_onTop hg hh hc).symm
    exact ⟨_, _, (Request.perform_wanted_iff hwanted).mpr ⟨⟨hcontainer hc hthere,
      fun h => kind?_package_of_key?_eq hkey (hpackage h)⟩, rfl, rfl⟩⟩
  have hadded : ∀ {c : DeclId} {decl : Decl}, request.added? = some (c, decl) → c.index < g.size →
      ∃ answer g', request.perform g = .ok answer g' := by
    intro c decl hadded hc
    obtain ⟨hthere, -⟩ := (Request.perform_added_iff (Request.added?_renumber hadded _)).mp hrun
    exact ⟨_, _, (Request.perform_added_iff hadded).mpr ⟨hcontainer hc hthere, rfl, rfl⟩⟩
  cases request with
  | package container name => exact hwanted rfl hbelow.1
  | klass container name | object container name => exact hwanted rfl hbelow.1
  | field container name | method container name | comment container text =>
      exact hadded rfl hbelow.1
  | issueName container =>
      obtain ⟨name, hasked, -⟩ := Build.exists_of_map_eq_ok hrun
      obtain ⟨hthere, hleft, -⟩ := exists_of_issueName hasked
      rw [halong.issued_new hbelow.2 hbelow.1] at hleft
      obtain ⟨g', hrunOwn⟩ := exists_issueName (hcontainer hbelow.1 hthere) hleft
      exact ⟨_, _, Build.map_of_ok hrunOwn _⟩
  | dropDuplicate container id =>
      obtain ⟨dropped, hasked, -⟩ := Build.exists_of_map_eq_ok hrun
      obtain ⟨duplicate, hduplicate, -⟩ := Build.exists_of_checked_eq_ok hasked
      have hown := (halong.isDuplicate_iff hg hh hbelow.1.2 hbelow.1.1 hbelow.2).mp hduplicate
      exact ⟨_, _, Build.map_of_ok (Build.checked_of_ok hown) _⟩
  | editClass id change => exact ⟨_, _, rfl⟩
  | editObject id change => exact ⟨_, _, rfl⟩
  | editField id change => exact ⟨_, _, rfl⟩
  | editMethod id change => exact ⟨_, _, rfl⟩

end Alongside

end Graph
end DeclGraph

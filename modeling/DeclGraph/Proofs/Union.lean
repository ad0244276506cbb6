import DeclGraph.Proofs.IssuedNames
import DeclGraph.Proofs.Merging
import DeclGraph.Proofs.Rewriting

/-!
# A merge is a union

Merging brings every container of the incoming graph to one container of the
result: to the one that it meets there, or to a new one.  The members of a
container are those that it had and then, in their order, those of the incoming
containers and members that met nothing.  Counts of issued names add up, existing
classes keep their headers and gain the parents that they lack, and whatever is
copied refers to the renamed containers by their new paths.

Main results:

- Definition `Graph.Union`: what it is for a graph to be the union of two.
- Theorem `Graph.CountedMerging.union`: a log of a merge shows a union.
- Theorem `Built.merge_union`: merging graphs that were built under issued names
  goes through and yields their union.
-/

namespace DeclGraph

/-! ## What a union is -/

/-- Does an incoming declaration meet this one? Containers meet containers of their kind and name,
methods meet methods that are like them, and nothing else meets anything. -/
def Decl.meets (old incoming : Decl) : Bool :=
  match old, incoming with
  | .method m, .method n => m.Alike n
  | old, incoming => old.key?.isSome && old.key? = incoming.key?

namespace Graph

/-- Does an incoming declaration meet no member of a container? -/
def lacks (g : Graph) (container : DeclId) (incoming : Decl) : Bool :=
  !(g.memberIds container).any fun id => (g.get? id).any fun old => old.meets incoming

theorem lacks_iff {g : Graph} {container : DeclId} {incoming : Decl} :
    g.lacks container incoming = true ↔ ∀ id ∈ g.memberIds container, ∀ old,
      g.get? id = some old → old.meets incoming = false := by
  simp [lacks, Option.any_eq_false]

/-- A container meets nothing if nothing is indexed under its key. -/
theorem lacks_container_iff {g : Graph} (hg : Coherent g) {container : DeclId} {incoming : Decl}
    {key : Key} (hkey : incoming.key? = some key) :
    g.lacks container incoming = true ↔ g.lookup container key = none := by
  have hmeets : ∀ old : Decl, old.meets incoming = decide (old.key? = some key) := by
    intro old
    cases incoming <;> simp [Decl.key?] at hkey <;> subst hkey <;> cases old <;>
      simp [Decl.meets, Decl.key?]
  rw [lacks_iff]
  constructor
  · intro hlacks
    cases hlookup : g.lookup container key with
    | none => rfl
    | some id =>
        rcases hg.lookup_eq_some.mp hlookup with ⟨howner, hidKey⟩
        rcases Option.bind_eq_some_iff.mp hidKey with ⟨old, hold, holdKey⟩
        have hno := hlacks id (hg.mem_memberIds.mpr howner) old hold
        simp [hmeets, holdKey] at hno
  · intro hlookup id hid old hold
    rw [hmeets, decide_eq_false_iff_not]
    intro holdKey
    have hfound := hg.lookup_eq_some.mpr
      ⟨hg.mem_memberIds.mp hid, by rw [key?, hold, Option.bind_some, holdKey]⟩
    rw [hlookup] at hfound
    contradiction

/-- What is no container meets only a method that is like it. -/
theorem lacks_leaf_iff {g : Graph} {container : DeclId} {incoming : Decl}
    (hleaf : incoming.key? = none) :
    g.lacks container incoming = true ↔ ¬ g.HasAlike g.size container incoming := by
  have hmeets : ∀ old : Decl, old.meets incoming = true ↔ ∃ found method,
      old = .method found ∧ incoming = .method method ∧ found.Alike method := by
    intro old
    cases incoming <;> simp only [Decl.key?, reduceCtorEq] at hleaf <;> cases old <;>
      simp [Decl.meets, Decl.key?]
  rw [lacks_iff]
  constructor
  · rintro hlacks ⟨id, hid, -, found, method, hfound, hincoming, halike⟩
    have hno := hlacks id hid _ hfound
    rw [(hmeets _).mpr ⟨found, method, rfl, hincoming, halike⟩] at hno
    contradiction
  · intro hnot id hid old hold
    rw [← Bool.not_eq_true]
    intro hmeet
    rcases (hmeets old).mp hmeet with ⟨found, method, rfl, hincoming, halike⟩
    exact hnot ⟨id, hid, index_lt_of_get? hold, found, method, hold, hincoming, halike⟩

/-- The members of a container of `other` that meet no member of the container `e` of `g` under the
names that they get. -/
def newMembers (g other : Graph) (plan : Renamings) (e d : DeclId) : List DeclId :=
  (other.memberIds d).filter fun id =>
    (other.get? id).any fun decl => g.lacks e (plan.rename id decl)

/-- The graph `merged` is `g` with everything that is in `other` brought in: `image` tells what the
declarations of `other` have become, and `plan` which containers were renamed. -/
structure Union (g other merged : Graph) (plan : Renamings) (image : DeclId → DeclId) : Prop where
  /-- The root becomes the root. -/
  root : image root = root
  /-- Different containers become different containers. -/
  injective : ∀ {d d' : DeclId}, (other.key? d).isSome → (other.key? d').isSome →
    image d = image d' → d = d'
  /-- A container becomes a container of its kind. -/
  kind : ∀ {d : DeclId}, (other.key? d).isSome → merged.kind? (image d) = other.kind? d
  /-- What a container becomes is a member of what its owner becomes. -/
  member : ∀ {c d : DeclId}, other.owner? d = some c → (other.key? d).isSome →
    image d ∈ merged.memberIds (image c)
  /-- Packages, and classes and objects with names of their own, keep their names, and so does
  everything that comes into a container that had issued no names. -/
  name_kept : ∀ {c d : DeclId} {kind : Kind} {name : Name}, other.owner? d = some c →
    other.key? d = some (kind, name) →
    kind = .package ∨ name.anonymousIndex? = none ∨ g.issued (image c) = 0 →
    merged.key? (image d) = some (kind, name)
  /-- The number of an anonymous class or object is shifted by as many names as were issued. -/
  name_shifted : ∀ {c d : DeclId} {kind : Kind} {name : Name} {k : UInt32},
    other.owner? d = some c → other.key? d = some (kind, name) → kind ≠ .package →
    name.anonymousIndex? = some k → g.issued (image c) ≠ 0 →
    k.toNat + (g.issued (image c)).toNat < UInt32.size ∧
      merged.key? (image d) = some (kind, Name.anonymous (k + g.issued (image c)))
  /-- The members of a container are those that it had and then the new ones. -/
  members : ∀ {d : DeclId}, (other.key? d).isSome → merged.memberIds (image d) =
    g.memberIds (image d) ++ (newMembers g other plan (image d) d).map image
  /-- A new member was not there before. -/
  fresh : ∀ {d id : DeclId}, (other.key? d).isSome → id ∈ newMembers g other plan (image d) d →
    g.size ≤ (image id).index
  /-- Fields, comments and methods are copied, and what they refer to is renamed. -/
  copied : ∀ {d id : DeclId} {decl : Decl}, (other.key? d).isSome →
    id ∈ newMembers g other plan (image d) d → other.get? id = some decl → decl.key? = none →
    merged.get? (image id) = some (plan.rename id decl)
  /-- Counts of issued names add up. -/
  issued : ∀ {d : DeclId}, (other.key? d).isSome →
    (merged.issued (image d)).toNat = (g.issued (image d)).toNat + (other.issued d).toNat
  /-- A new class has the header of the incoming class. -/
  class_new : ∀ {d : DeclId} {k : ClassDecl}, other.klass? d = some k →
    g.size ≤ (image d).index → ∃ k', merged.klass? (image d) = some k' ∧
      k'.isTrait = k.isTrait ∧ k'.tparams = (k.mapTypes plan.redirect).tparams ∧
      GainsParents [] (k.parents.map plan.redirect) k'.parents
  /-- A class that was there keeps its header and gains the parents that it lacks. -/
  class_old : ∀ {d : DeclId} {k old : ClassDecl}, other.klass? d = some k →
    g.klass? (image d) = some old → ∃ k', merged.klass? (image d) = some k' ∧
      k'.isTrait = old.isTrait ∧ k'.tparams = old.tparams ∧
      GainsParents old.parents (k.parents.map plan.redirect) k'.parents
  /-- The containers whose names are shifted are renamed from their path to the new one. -/
  renamed : ∀ {entry : Renaming}, entry ∈ plan ↔ ∃ c kind name k,
    other.owner? entry.source = some c ∧ other.key? entry.source = some (kind, name) ∧
    kind ≠ .package ∧ name.anonymousIndex? = some k ∧ g.issued (image c) ≠ 0 ∧
    entry.name = Name.anonymous (k + g.issued (image c)) ∧
    entry.fromPath = other.path entry.source ∧ entry.toPath = merged.path (image entry.source)
  /-- On every path in a type that is redirected, the innermost renamed container is exchanged for
  its new path, and all other paths stay. -/
  rewrites : plan.Rewrites
  /-- Everything that was there keeps its place. -/
  place_old : ∀ {id : DeclId}, id.index < g.size →
    merged.owner? id = g.owner? id ∧ merged.key? id = g.key? id
  /-- What was there and is no container stays what it was. -/
  get?_old : ∀ {id : DeclId} {decl : Decl}, g.get? id = some decl → decl.key? = none →
    merged.get? id = some decl
  /-- A container that nothing came into stays what it was. -/
  untouched : ∀ {id : DeclId}, id.index < g.size →
    (∀ d, (other.key? d).isSome → image d ≠ id) →
    merged.header? id = g.header? id ∧ merged.memberIds id = g.memberIds id

/-! ## What is behind a union -/

/-- A list of which some elements are kept and mapped, read off another list. -/
private theorem filterMap_eq_map_filter {α β γ : Type} {l : List α} {f : α → Option γ}
    {source : α → β} {image : β → γ} (keep : β → Bool)
    (h : ∀ a ∈ l, f a = if keep (source a) = true then some (image (source a)) else none) :
    l.filterMap f = ((l.map source).filter keep).map image := by
  induction l with
  | nil => rfl
  | cons a rest ih =>
      have hrest := ih fun b hb => h b (List.mem_cons_of_mem _ hb)
      have hfirst := h a List.mem_cons_self
      by_cases hkeep : keep (source a) = true
      · rw [if_pos hkeep] at hfirst
        rw [List.filterMap_cons_some hfirst, hrest, List.map_cons, List.filter_cons_of_pos hkeep,
          List.map_cons]
      · rw [if_neg hkeep] at hfirst
        rw [List.filterMap_cons_none hfirst, hrest, List.map_cons, List.filter_cons_of_neg hkeep]

namespace Merging

variable {g other merged : Graph} {forest : Forest} {log : List Arrival}
  (hm : Merging g other merged forest log)

include hm

/-! ### What nothing came into -/

/-- Nothing came into a container that is no image. -/
theorem target_ne_of_not_image {id : DeclId} (hid : id.index < g.size)
    (hnever : ∀ d, (other.key? d).isSome → imageIn log d ≠ id) {a : Arrival} (ha : a ∈ log) :
    a.target ≠ some id := by
  intro htarget
  cases hkey : (other.key? a.source).isSome with
  | true => exact hnever a.source hkey (hm.image_eq ha htarget)
  | false =>
      have hleaf : a.decl.key? = none := by
        rw [← hm.logged.isSome_key?_decl ha] at hkey
        exact Option.isNone_iff_eq_none.mp (Option.isSome_eq_false_iff.mp hkey)
      cases hfresh : a.fresh with
      | true =>
          rcases hm.logged.size_le_of_fresh hm.coherent ha hfresh with ⟨e, he, hle⟩
          obtain rfl := Option.some.inj (htarget.symm.trans he)
          omega
      | false =>
          have hnone := (hm.logged.target_eq_none_iff hm.coherent hm.other_coherent ha
            hleaf).2.mp hfresh
          rw [hnone] at htarget
          contradiction

/-- Nothing arrived in a container that is no image. -/
theorem filterMap_enlisted?_of_not_image {id : DeclId}
    (hnever : ∀ d, (other.key? d).isSome → imageIn log d ≠ id) :
    log.filterMap (Arrival.enlisted? id) = [] := by
  rw [List.filterMap_eq_nil_iff]
  intro a ha
  rcases hm.logged.cases_arrival hm.other_coherent ha with
    ⟨-, -, hjoined⟩ | ⟨-, parent, hparent, hinto, howner⟩
  · simp [Arrival.enlisted?, hjoined]
  · have hne := hnever parent.source (hm.other_coherent.isSome_key?_of_owner? howner)
    rw [hm.image_eq hparent hinto] at hne
    simp [Arrival.enlisted?, hne]

variable (hapart : KeysApart g other)

include hapart

/-! ### Members -/

/-- Different containers have different images. -/
theorem image_injective {d d' : DeclId} (hd : (other.key? d).isSome) (hd' : (other.key? d').isSome)
    (h : imageIn log d = imageIn log d') : d = d' := by
  rcases hm.exists_arrival_container hd with ⟨a, ha, rfl, haKey, haTarget⟩
  rcases hm.exists_arrival_container hd' with ⟨b, hb, rfl, hbKey, hbTarget⟩
  rw [hm.logged.eq_of_target_eq hm.coherent hm.other_coherent hm.keys hapart ha hb haKey hbKey
    (by rw [haTarget, hbTarget, h])]

/-- What comes in gets a slot of its own exactly if it meets nothing. -/
theorem fresh_eq_lacks {a : Arrival} (ha : a ∈ log) {c : DeclId}
    (howner : other.owner? a.source = some c) :
    a.fresh = g.lacks (imageIn log c) a.decl := by
  have hne := hm.other_coherent.ne_root_of_owner? howner
  have hc := hm.other_coherent.isSome_key?_of_owner? howner
  have hcontainer := hm.container_eq ha howner
  rw [Bool.eq_iff_iff]
  cases hkey : a.decl.key? with
  | none =>
      rcases hm.logged.target_eq_none_iff hm.coherent hm.other_coherent ha hkey with
        ⟨hdropped, hfresh⟩
      rw [lacks_leaf_iff hkey, ← hcontainer, ← hdropped, ← hfresh, Bool.not_eq_false]
  | some key =>
      have hplanned := hm.keys a ha hne
      rw [hkey] at hplanned
      rw [hm.logged.fresh_iff hm.coherent hm.other_coherent hm.keys hapart ha
          (by rw [hkey, Option.isSome_some]),
        lacks_container_iff hm.coherent hkey, site_of_owner? hm.other_coherent howner, ← hplanned]
      rcases hm.image_cases hc with ⟨hsite, -⟩ | ⟨hsite, hbeyond⟩
      · rw [hsite]
        rfl
      · simp [hsite, lookup, index_of_size_le hbeyond]

/-- What arrives is a new member of the image of `d` if it is a new member of `d`. -/
private theorem enlisted?_image {d : DeclId} (hd : (other.key? d).isSome) {a : Arrival}
    (ha : a ∈ log) : a.enlisted? (imageIn log d) =
      if (((other.get? a.source).any fun decl =>
          g.lacks (imageIn log d) ((g.planned other forest).rename a.source decl)) &&
        other.owner? a.source = some d) = true
      then some (imageIn log a.source) else none := by
  rcases hm.logged.exists_decl ha with ⟨decl, hdecl, hrenamed⟩
  rcases hm.logged.cases_arrival hm.other_coherent ha with
    ⟨hroot, -, hjoined⟩ | ⟨hne, parent, hparent, hinto, howner⟩
  · rw [hroot, hm.other_coherent.owner?_root]
    simp [Arrival.enlisted?, hjoined]
  · have hcontainer := hm.image_eq hparent hinto
    have hfreshEq := hm.fresh_eq_lacks hapart ha howner
    rw [hdecl, Option.any_some, ← hrenamed, howner, Arrival.enlisted?]
    by_cases hparents : parent.source = d
    · rw [hparents] at hfreshEq hcontainer ⊢
      rw [← hcontainer, ← hfreshEq]
      cases hfresh : a.fresh with
      | false => simp
      | true =>
          rcases hm.logged.size_le_of_fresh hm.coherent ha hfresh with ⟨target, htarget, -⟩
          simp [htarget, hm.image_eq ha htarget]
    · have hc := hm.other_coherent.isSome_key?_of_owner? howner
      have hapart : a.container ≠ imageIn log d := fun hsame =>
        hparents (hm.image_injective hapart hc hd (hcontainer.trans hsame))
      simp [hparents, hapart]

/-- The members of an image are those that were there and then the images of the new ones. -/
theorem memberIds_image {d : DeclId} (hd : (other.key? d).isSome) :
    merged.memberIds (imageIn log d) = g.memberIds (imageIn log d) ++
      (newMembers g other (g.planned other forest) (imageIn log d) d).map (imageIn log) := by
  have howners : ∀ id ∈ other.memberIds root, other.owner? id = some root := fun id hid =>
    hm.other_coherent.mem_memberIds.mp hid
  have hread : (other.memberIds d).Sublist forest.ids := by
    rcases hm.other_coherent.eq_root_or_owned hd with rfl | ⟨c, howner⟩
    · exact hm.reads.sublist_ids
    · exact hm.reads.memberIds_sublist_ids (hm.other_coherent.mem_ids hm.reads howner)
  have hmembers := hm.other_coherent.filter_ids hm.reads howners
    (hm.other_coherent.nodup_memberIds root) hread
  have harrived := filterMap_eq_map_filter
    (fun id => ((other.get? id).any fun decl =>
      g.lacks (imageIn log d) ((g.planned other forest).rename id decl)) &&
        other.owner? id = some d)
    fun a ha => hm.enlisted?_image hapart hd ha
  rw [hm.logged.memberIds hm.coherent, harrived, hm.sources,
    List.filter_cons_of_neg (by simp [hm.other_coherent.owner?_root]), ← List.filter_filter,
    hmembers]
  rfl

/-- A new member arrived in a slot of its own. -/
theorem exists_arrival_new {d id : DeclId}
    (hid : id ∈ newMembers g other (g.planned other forest) (imageIn log d) d) :
    ∃ a ∈ log, a.source = id ∧ a.fresh = true ∧ a.target = some (imageIn log id) ∧
      g.size ≤ (imageIn log id).index := by
  rcases List.mem_filter.mp hid with ⟨hmember, hlacks⟩
  have howner := hm.other_coherent.mem_memberIds.mp hmember
  rcases hm.exists_arrival howner with ⟨a, ha, rfl⟩
  rcases hm.logged.exists_decl ha with ⟨decl, hdecl, hrenamed⟩
  rw [hdecl, Option.any_some, ← hrenamed, ← hm.fresh_eq_lacks hapart ha howner] at hlacks
  rcases hm.logged.size_le_of_fresh hm.coherent ha hlacks with ⟨target, htarget, hle⟩
  have himage := hm.image_eq ha htarget
  exact ⟨a, ha, rfl, hlacks, himage.symm ▸ htarget, himage.symm ▸ hle⟩

/-! ### Headers -/

/-- The header of an image is that which was there, or a new one, with what came in absorbed. -/
theorem header?_image {d : DeclId} {decl : Decl} (hdecl : other.get? d = some decl)
    (hd : decl.key?.isSome) :
    ∃ key fresh, ((g.planned other forest).rename d decl).key? = some key ∧
      (fresh = true ↔ g.size ≤ (imageIn log d).index) ∧
      merged.header? (imageIn log d) =
        (if fresh then some (bare key none) else g.header? (imageIn log d)).map
          (((g.planned other forest).rename d decl).absorb fresh) := by
  have hdKey : (other.key? d).isSome := by rw [Graph.key?, hdecl, Option.bind_some, hd]
  rcases hm.exists_arrival_container hdKey with ⟨a, ha, rfl, hkey, htarget⟩
  rcases hm.logged.exists_decl ha with ⟨found, hfound, hrenamed⟩
  obtain rfl : decl = found := Option.some.inj (hdecl.symm.trans hfound)
  rcases Option.isSome_iff_exists.mp hkey with ⟨key, hkeyEq⟩
  have hheader := hm.logged.header?_target hm.coherent hm.other_coherent hm.keys hapart ha hkey
    htarget
  refine ⟨key, a.fresh, hrenamed ▸ hkeyEq, ?_, ?_⟩
  · rcases hm.image_cases hdKey with ⟨hsite, hlt⟩ | ⟨hsite, hle⟩
    · rw [hm.logged.fresh_iff hm.coherent hm.other_coherent hm.keys hapart ha hkey, hsite]
      simp [hlt]
    · rw [hm.logged.fresh_iff hm.coherent hm.other_coherent hm.keys hapart ha hkey]
      exact ⟨fun _ => hle, fun _ => hsite⟩
  · rw [hheader, Arrival.settled, hkeyEq, hrenamed]

/-- A new class has the header of the incoming class. -/
theorem class_new {d : DeclId} {k : ClassDecl} (hk : other.klass? d = some k)
    (hnew : g.size ≤ (imageIn log d).index) :
    ∃ k', merged.klass? (imageIn log d) = some k' ∧ k'.isTrait = k.isTrait ∧
      k'.tparams = (k.mapTypes (g.planned other forest).redirect).tparams ∧
      GainsParents [] (k.parents.map (g.planned other forest).redirect) k'.parents := by
  rcases hm.header?_image hapart (klass?_eq_some_iff.mp hk) rfl with
    ⟨key, fresh, hkey, hfresh, hheader⟩
  rw [hfresh.mpr hnew] at hheader
  obtain rfl : (.klass, (g.planned other forest).nameOf d k.name) = key := Option.some.inj hkey
  rcases exists_klass?_of_header? hheader with ⟨k', hk', htrait, htparams, hparents⟩
  refine ⟨k', hk', htrait, htparams, ?_⟩
  rw [hparents]
  exact ClassDecl.gainsParents { name := (g.planned other forest).nameOf d k.name } _

/-- A class that was there keeps its header and gains the parents that it lacks. -/
theorem class_old {d : DeclId} {k old : ClassDecl} (hk : other.klass? d = some k)
    (hold : g.klass? (imageIn log d) = some old) :
    ∃ k', merged.klass? (imageIn log d) = some k' ∧ k'.isTrait = old.isTrait ∧
      k'.tparams = old.tparams ∧
      GainsParents old.parents (k.parents.map (g.planned other forest).redirect) k'.parents := by
  have hfound := klass?_eq_some_iff.mp hold
  rcases hm.header?_image hapart (klass?_eq_some_iff.mp hk) rfl with
    ⟨key, fresh, hkey, hfresh, hheader⟩
  have hlt := index_lt_of_get? hfound
  have hjoined : fresh = false := by
    rw [← Bool.not_eq_true, hfresh]
    omega
  have hbefore : g.header? (imageIn log d) = some (Decl.klass old).header := by
    rw [Graph.header?, hfound, Option.map_some]
  rw [hjoined, hbefore] at hheader
  rcases exists_klass?_of_header? hheader with ⟨k', hk', htrait, htparams, hparents⟩
  refine ⟨k', hk', htrait, htparams, ?_⟩
  rw [hparents]
  exact ClassDecl.gainsParents _ _

end Merging

/-- A merge that went through of graphs whose counts of issued names fit, where the names that come
in were issued. -/
structure CountedMerging (g other merged : Graph) (forest : Forest) (log : List Arrival) : Prop
    extends Merging g other merged forest log where
  names : NamesIssued other
  counts : CountsFit g other

namespace CountedMerging

variable {g other merged : Graph} {forest : Forest} {log : List Arrival}
  (hm : CountedMerging g other merged forest log)

include hm

theorem apart : KeysApart g other :=
  keysApart hm.other_coherent hm.names hm.counts

/-! ### Names -/

/-- A number that is shifted where it comes in does not run out of 32 bits. -/
theorem shift_fits {c d : DeclId} {kind : Kind} {name : Name} {k : UInt32}
    (howner : other.owner? d = some c) (hkey : other.key? d = some (kind, name))
    (hkind : kind ≠ .package) (hindex : name.anonymousIndex? = some k) :
    k.toNat + (g.issued (imageIn log c)).toNat < UInt32.size := by
  have hc := hm.other_coherent.isSome_key?_of_owner? howner
  have hle := (hm.names howner hkey hkind hindex).2.1
  rcases hm.image_cases hc with ⟨hsite, -⟩ | ⟨-, hbeyond⟩
  · have hfit := hm.counts hsite
    omega
  · have hbound := k.toNat_lt_size
    simpa [Graph.issued, get?_eq_none_iff.mpr hbeyond] using hbound

/-! ### Counts -/

/-- Counts of issued names add up. -/
theorem issued_image {d : DeclId} (hd : (other.key? d).isSome) :
    (merged.issued (imageIn log d)).toNat =
      (g.issued (imageIn log d)).toNat + (other.issued d).toNat := by
  rcases hm.exists_arrival_container hd with ⟨a, ha, rfl, hkey, htarget⟩
  rcases Option.isSome_iff_exists.mp hkey with ⟨key, hkeyEq⟩
  have hold : a.fresh = false →
      ∃ old, g.header? (imageIn log a.source) = some old ∧ old.key?.isSome := by
    intro hfresh
    have hlt := hm.logged.index_lt_of_joined hm.coherent hm.other_coherent hm.keys hm.apart ha hkey
      hfresh htarget
    have hthere := (hm.logged.key?_old hm.coherent hlt).1
    rw [(hm.logged.key?_target hm.coherent hm.other_coherent ha htarget).1, hkeyEq,
      key?_eq_header?] at hthere
    rcases Option.bind_eq_some_iff.mp hthere.symm with ⟨old, hheader, holdKey⟩
    exact ⟨old, hheader, by rw [holdKey, Option.isSome_some]⟩
  have hcount : (if a.fresh then 0 else g.issued (imageIn log a.source)) =
      g.issued (imageIn log a.source) := by
    cases hfresh : a.fresh with
    | false => rfl
    | true =>
        rcases hm.logged.size_le_of_fresh hm.coherent ha hfresh with ⟨e, he, hle⟩
        rw [hm.image_eq ha he, issued_of_size_le hle]
        rfl
  have hfit : (g.issued (imageIn log a.source)).toNat + (other.issued a.source).toNat <
      UInt32.size := by
    rcases hm.image_cases hd with ⟨hsite, -⟩ | ⟨-, hbeyond⟩
    · exact hm.counts hsite
    · rw [issued_of_size_le hbeyond, UInt32.toNat_zero, Nat.zero_add]
      exact (other.issued a.source).toNat_lt_size
  rw [issued_eq_header?, hm.logged.header?_target hm.coherent hm.other_coherent hm.keys hm.apart ha
      hkey htarget, Arrival.issued_settled hkeyEq hold, ← issued_eq_header?, hcount,
    hm.logged.issued_decl ha, Name.toNat_shiftIndex]
  omega

/-! ### The plan -/

/-- The plan renames the containers whose names are shifted, from their path to the new one. -/
theorem mem_planned_iff {entry : Renaming} : entry ∈ g.planned other forest ↔ ∃ c kind name k,
    other.owner? entry.source = some c ∧ other.key? entry.source = some (kind, name) ∧
    kind ≠ .package ∧ name.anonymousIndex? = some k ∧ g.issued (imageIn log c) ≠ 0 ∧
    entry.name = Name.anonymous (k + g.issued (imageIn log c)) ∧
    entry.fromPath = other.path entry.source ∧
    entry.toPath = merged.path (imageIn log entry.source) := by
  rw [hm.mem_planned_iff_shifted]
  constructor
  · intro hgiven
    rcases hgiven with ⟨c, kind, name, k, howner, hkey, hkind, hindex, hissued, hname, hpaths⟩
    rw [Name.shiftIndex_eq_add (hm.shift_fits howner hkey hkind hindex)] at hname
    exact ⟨c, kind, name, k, howner, hkey, hkind, hindex, hissued, hname, hpaths⟩
  · intro hgiven
    rcases hgiven with ⟨c, kind, name, k, howner, hkey, hkind, hindex, hissued, hname, hpaths⟩
    rw [← Name.shiftIndex_eq_add (hm.shift_fits howner hkey hkind hindex)] at hname
    exact ⟨c, kind, name, k, howner, hkey, hkind, hindex, hissued, hname, hpaths⟩

/-! ### The union -/

/-- The log of a merge shows a union. -/
theorem union : Union g other merged (g.planned other forest) (imageIn log) where
  root := hm.image_root
  injective := hm.image_injective hm.apart
  kind := hm.kind?_image
  member := by
    intro c d howner hd
    rcases Option.isSome_iff_exists.mp hd with ⟨key, hkey⟩
    exact hm.merged_coherent.mem_memberIds.mpr (hm.key?_image howner hkey).2
  name_kept := by
    intro c d kind name howner hkey hfixed
    rw [(hm.key?_image howner hkey).1]
    rcases hfixed with hkind | hname | hissued
    · rw [hkind, Name.merged_package]
    · rw [Name.merged_of_anonymousIndex?_eq_none hname]
    · rw [hissued, Name.merged_zero]
  name_shifted := by
    intro c d kind name k howner hkey hkind hindex hissued
    have hfits := hm.shift_fits howner hkey hkind hindex
    refine ⟨hfits, ?_⟩
    rw [(hm.key?_image howner hkey).1, Name.merged_anonymous hissued hkind hindex,
      Name.shiftIndex_eq_add hfits]
  members := hm.memberIds_image hm.apart
  fresh := by
    intro d id hd hid
    rcases hm.exists_arrival_new hm.apart hid with ⟨a, -, -, -, -, hle⟩
    exact hle
  copied := by
    intro d id decl hd hid hdecl hleaf
    rcases hm.exists_arrival_new hm.apart hid with ⟨a, ha, rfl, -, htarget, -⟩
    rcases hm.logged.exists_decl ha with ⟨found, hfound, hrenamed⟩
    obtain rfl : decl = found := Option.some.inj (hdecl.symm.trans hfound)
    have haLeaf : a.decl.key? = none := by rwa [hrenamed, Renamings.key?_rename_eq_none_iff]
    rw [← hrenamed]
    exact hm.logged.get?_leaf hm.coherent hm.other_coherent ha haLeaf htarget
  issued := hm.issued_image
  class_new := hm.class_new hm.apart
  class_old := hm.class_old hm.apart
  renamed := hm.mem_planned_iff
  rewrites := (g.planned other forest).rewrites
  place_old := by
    intro id hid
    exact ⟨hm.logged.owner?_old hm.coherent hid, (hm.logged.key?_old hm.coherent hid).1⟩
  get?_old := fun hget hleaf => hm.logged.get?_old hm.coherent hget hleaf
  untouched := by
    intro id hid hnever
    refine ⟨hm.logged.header?_old hm.coherent hid
      fun a ha => hm.target_ne_of_not_image hid hnever ha, ?_⟩
    rw [hm.logged.memberIds hm.coherent, hm.filterMap_enlisted?_of_not_image hnever,
      List.append_nil]

end CountedMerging

end Graph

open DeclGraph.Graph

/-- Merging graphs that were built under issued names goes through, as long as there are slots for
what comes in and the counts of issued names add up, and yields their union. -/
theorem Built.merge_union {record otherRecord : Record} {g other : Graph}
    (hg : Built issuedName record g) (hother : Built issuedName otherRecord other)
    (hsize : ((Graph.merge other).final g).size < UInt32.size) (hcounts : CountsFit g other) :
    ∃ merged plan image, Graph.merge other g = .ok () merged ∧
      Union g other merged plan image := by
  rcases hg.exists_merging hother hsize with ⟨merged, forest, log, hmerge, hm⟩
  have hcounted : CountedMerging g other merged forest log :=
    { toMerging := hm
      names := hother.namesIssued
      counts := hcounts }
  exact ⟨merged, _, _, hmerge, hcounted.union⟩

/-- Two classes of one name, each with an anonymous class of its own.  The one that comes in has a
field that refers to it, and that does so by the shifted number after the merge; the reference of
the field to the class of plain name stays. -/
theorem merge_union_of_anonymous : ∃ record otherRecord g other, Built issuedName record g ∧
    Built issuedName otherRecord other ∧ g.key? ⟨2⟩ = some (.klass, Name.anonymous 1) ∧
    other.key? ⟨2⟩ = some (.klass, Name.anonymous 1) ∧
    other.get? ⟨4⟩ = some (.field
      { name := ⟨"f"⟩
        type := ⟨⟨[⟨"C"⟩, Name.anonymous 1]⟩, [⟨⟨[⟨"C"⟩]⟩, []⟩]⟩ }) ∧
    ∃ merged plan image, Graph.merge other g = .ok () merged ∧
      merged.key? ⟨3⟩ = some (.klass, Name.anonymous 2) ∧
      merged.get? ⟨4⟩ = some (.field
        { name := ⟨"f"⟩
          type := ⟨⟨[⟨"C"⟩, Name.anonymous 2]⟩, [⟨⟨[⟨"C"⟩]⟩, []⟩]⟩ }) ∧
      Union g other merged plan image := by
  have hg := built_played [.klass root ⟨"C"⟩, .issueName ⟨1⟩, .klass ⟨1⟩ ⟨"anon$1"⟩] rfl
  have hother := built_played [.klass root ⟨"C"⟩, .issueName ⟨1⟩, .klass ⟨1⟩ ⟨"anon$1"⟩,
    .method ⟨1⟩ ⟨"m"⟩, .field ⟨2⟩ ⟨"f"⟩, .editField ⟨4⟩ ({ · with
      type := ⟨⟨[⟨"C"⟩, ⟨"anon$1"⟩]⟩, [⟨⟨[⟨"C"⟩]⟩, []⟩]⟩ })] rfl
  obtain ⟨merged, plan, image, hmerge, hunion⟩ := Built.merge_union hg hother (by decide +kernel)
    (countsFit_of_le 1 1 (by decide +kernel) (by decide +kernel) (by decide))
  obtain rfl := Build.final_of_ok hmerge
  exact ⟨_, _, _, _, hg, hother, by decide +kernel, by decide +kernel, by decide +kernel, _, plan,
    image, hmerge, by decide +kernel, by decide +kernel, hunion⟩

end DeclGraph

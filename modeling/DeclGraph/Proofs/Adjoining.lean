import DeclGraph.Proofs.Renumbering

/-!
# Graphs beside each other

A graph is put beside another one if everything below its root is copied below the
root of the other, and the two have no key in common there.  What is at an address
is told by its profile: the header of the container and its roster.  The first key
of an address tells which of the two graphs it belongs to, and so the profiles after
that are known.

Main results:

- Theorem `Graph.renumbering_of_profiles`: graphs with the same profiles are
  renumberings of each other.
- Theorem `Graph.Beside.profile_nil`, Theorem `Graph.Beside.profile_cons_old` and Theorem
  `Graph.Beside.profile_cons_new`: the profiles of a graph that another one was put
  beside.
- Theorem `Graph.Beside.profiles`: putting a graph beside two graphs with the same
  profiles leads to the same profiles.
-/

namespace DeclGraph

/-- A declaration shows its stub in its header. -/
theorem Decl.stub_header (decl : Decl) : decl.header.stub = decl.stub := by
  cases decl <;> rfl

/-- A view of declarations that lets keys be seen, and what is no container as it is. -/
structure Transparent (view : Decl → Decl) : Prop where
  key : ∀ decl, (view decl).key? = decl.key?
  leaf : ∀ decl, decl.key? = none → view decl = decl

theorem Transparent.id : Transparent id where
  key := fun _ => rfl
  leaf := fun _ _ => rfl

theorem Transparent.stub {view : Decl → Decl} (hview : Transparent view) (decl : Decl) :
    (view decl).stub = decl.stub := by
  cases hkey : decl.key? with
  | none => rw [hview.leaf decl hkey]
  | some key => rw [Decl.stub, Decl.stub, hview.key, hkey]

namespace Graph

theorem stub?_eq_header? (g : Graph) (id : DeclId) : g.stub? id = (g.header? id).map Decl.stub := by
  rw [stub?, header?, Option.map_map]
  congr 1
  funext decl
  exact decl.stub_header.symm

/-! ## Profiles -/

/-- What there is to see of a container from above: its header, and what its members show of
themselves. -/
structure Profile where
  /-- The header of the container. -/
  header : Option Decl
  /-- What its members show of themselves. -/
  roster : List (Option (Key ⊕ Decl))

/-- The profile of a container that is seen through a view. -/
def Profile.through (view : Decl → Decl) (p : Profile) : Profile :=
  { p with header := p.header.map view }

/-- The profile of the container at an address. -/
def profile (g : Graph) (address : List Key) : Option Profile :=
  (g.locate address).map fun id => { header := g.header? id, roster := g.roster id }

theorem profile_eq_some_iff {g : Graph} {address : List Key} {p : Profile} :
    g.profile address = some p ↔ ∃ id, g.locate address = some id ∧ g.header? id = p.header ∧
      g.roster id = p.roster := by
  rw [profile, Option.map_eq_some_iff]
  constructor
  · rintro ⟨id, hid, rfl⟩
    exact ⟨id, hid, rfl, rfl⟩
  · rintro ⟨id, hid, hheader, hroster⟩
    exact ⟨id, hid, by rw [hheader, hroster]⟩

@[simp]
theorem isSome_profile (g : Graph) (address : List Key) :
    (g.profile address).isSome = (g.locate address).isSome := by
  rw [profile, Option.isSome_map]

theorem profile_of_locate {g : Graph} {address : List Key} {id : DeclId}
    (hid : g.locate address = some id) :
    g.profile address = some { header := g.header? id, roster := g.roster id } := by
  rw [profile, hid, Option.map_some]

theorem profile_of_locate_eq_none {g : Graph} {address : List Key}
    (hnone : g.locate address = none) : g.profile address = none := by
  rw [profile, hnone, Option.map_none]

theorem profile_nil (g : Graph) :
    g.profile [] = some { header := g.header? root, roster := g.roster root } :=
  rfl

/-- A longer address leads to where its rest leads from what the root has under its first key. -/
theorem locate_cons (g : Graph) (key : Key) (rest : List Key) :
    g.locate (key :: rest) = (g.lookup root key).bind fun id => rest.foldlM g.lookup id := by
  rw [locate, List.foldlM_cons]
  rfl

theorem isSome_locate_singleton (g : Graph) (key : Key) :
    (g.locate [key]).isSome = (g.lookup root key).isSome := by
  rw [locate_cons]
  cases g.lookup root key <;> rfl

/-- What a way down from an owned container leads to is owned. -/
theorem Coherent.isSome_owner?_of_foldlM {g : Graph} (hg : Coherent g) {rest : List Key}
    {id e : DeclId} (hid : (g.owner? id).isSome) (he : rest.foldlM g.lookup id = some e) :
    (g.owner? e).isSome := by
  induction rest generalizing id with
  | nil => rwa [← Option.some.inj he]
  | cons key rest ih =>
      rw [List.foldlM_cons] at he
      obtain ⟨next, hnext, hrest⟩ := Option.bind_eq_some_iff.mp he
      have howner := (hg.lookup_eq_some.mp hnext).1
      exact ih (Option.isSome_of_eq_some howner) hrest

/-- Graphs with the same profiles, as far as the view goes, are renumberings of each other: what is
at one address corresponds to each other. -/
theorem renumbering_of_profiles {view : Decl → Decl} {g h : Graph} (hview : Transparent view)
    (hg : Coherent g) (hh : Coherent h)
    (hprofiles : ∀ address, h.profile address = (g.profile address).map (Profile.through view)) :
    Renumbering view g h (counterpart g h) ∧
      ∀ address, h.locate address = (g.locate address).map (counterpart g h) := by
  have hseen : ∀ {address id}, g.locate address = some id → ∃ e, h.locate address = some e ∧
      h.header? e = (g.header? id).map view ∧ h.roster e = g.roster id := by
    intro address id hid
    have hprofile := hprofiles address
    rw [profile_of_locate hid, Option.map_some] at hprofile
    exact profile_eq_some_iff.mp hprofile
  have haligned : Aligned g h := by
    intro address id hid
    obtain ⟨e, he, -, hroster⟩ := hseen hid
    exact ⟨e, he, hroster⟩
  constructor
  · apply haligned.renumbering hg hh hview.leaf
    intro address id e hid he
    obtain ⟨e', he', hheader, -⟩ := hseen hid
    rwa [Option.some.inj (he.symm.trans he')]
  · intro address
    cases hid : g.locate address with
    | some id =>
        obtain ⟨hidKey, rfl⟩ := hg.locate_eq_some_iff.mp hid
        exact haligned.locate_counterpart hg hh hidKey
    | none =>
        have hsome := congrArg Option.isSome (hprofiles address)
        rw [isSome_profile, Option.isSome_map, isSome_profile, hid, Option.isSome_none] at hsome
        exact Option.isNone_iff_eq_none.mp (Option.isSome_eq_false_iff.mp hsome)

/-- Roots with the same profiles have something under the same keys. -/
theorem isSome_lookup_root_of_profiles {view : Decl → Decl} {g h : Graph}
    (hprofiles : ∀ address, h.profile address = (g.profile address).map (Profile.through view))
    (key : Key) : (h.lookup root key).isSome = (g.lookup root key).isSome := by
  have hsome := congrArg Option.isSome (hprofiles [key])
  rwa [isSome_profile, Option.isSome_map, isSome_profile, isSome_locate_singleton,
    isSome_locate_singleton] at hsome

/-! ## Graphs beside each other -/

/-- The graph `h` is `base` with everything below the root of `part` beside it: `image` tells where
what is owned in `part` is copied, and `view` what becomes of a declaration by itself. -/
structure Beside (view : Decl → Decl) (base part h : Graph) (image : DeclId → DeclId) : Prop where
  /-- The roots have no key in common. -/
  apart : ∀ key, (part.lookup root key).isSome → base.lookup root key = none
  /-- The root stays what it was. -/
  header_root : h.header? root = base.header? root
  /-- The members of the two roots stand in a row. -/
  members_root : h.memberIds root = base.memberIds root ++ (part.memberIds root).map image
  /-- What was there stays what it was. -/
  old : ∀ {id c}, base.owner? id = some c →
    h.header? id = base.header? id ∧ h.memberIds id = base.memberIds id
  /-- What is below the root of the part is copied with its members. -/
  new : ∀ {d c}, part.owner? d = some c → h.header? (image d) = (part.header? d).map view ∧
    h.memberIds (image d) = (part.memberIds d).map image

namespace Beside

variable {view : Decl → Decl} {base part h : Graph} {image : DeclId → DeclId}
  (hbeside : Beside view base part h image)

include hbeside

/-- What was there shows what it showed. -/
theorem stub?_old {id c : DeclId} (howner : base.owner? id = some c) :
    h.stub? id = base.stub? id := by
  rw [stub?_eq_header?, (hbeside.old howner).1, stub?_eq_header?]

theorem key?_old {id c : DeclId} (howner : base.owner? id = some c) : h.key? id = base.key? id := by
  rw [key?_eq_header?, (hbeside.old howner).1, key?_eq_header?]

section View

variable (hview : Transparent view)

include hview

/-- A copy shows what is copied. -/
theorem stub?_new {d c : DeclId} (howner : part.owner? d = some c) :
    h.stub? (image d) = part.stub? d := by
  rw [stub?_eq_header?, (hbeside.new howner).1, stub?_eq_header?, Option.map_map]
  congr 1
  funext decl
  exact hview.stub decl

theorem key?_new {d c : DeclId} (howner : part.owner? d = some c) :
    h.key? (image d) = part.key? d :=
  key?_eq_of_stub?_eq (hbeside.stub?_new hview howner)

end View

variable (hview : Transparent view) (hbase : Coherent base) (hpart : Coherent part)
  (hh : Coherent h)

include hbase in
/-- What was there has the roster that it had. -/
theorem roster_old {id c : DeclId} (howner : base.owner? id = some c) :
    h.roster id = base.roster id := by
  rw [roster, (hbeside.old howner).2, roster]
  exact List.map_congr_left fun member hmember =>
    hbeside.stub?_old (hbase.mem_memberIds.mp hmember)

include hview hpart in
/-- A copy has the roster of what is copied. -/
theorem roster_new {d c : DeclId} (howner : part.owner? d = some c) :
    h.roster (image d) = part.roster d := by
  rw [roster, (hbeside.new howner).2, roster, List.map_map]
  exact List.map_congr_left fun member hmember =>
    hbeside.stub?_new hview (hpart.mem_memberIds.mp hmember)

include hview hbase hpart

/-- The profile of the root has the rosters of the two roots in a row. -/
theorem profile_nil : h.profile [] =
    some { header := base.header? root, roster := base.roster root ++ part.roster root } := by
  have hold : (base.memberIds root).map h.stub? = base.roster root :=
    List.map_congr_left fun member hmember =>
      hbeside.stub?_old (hbase.mem_memberIds.mp hmember)
  have hnew : ((part.memberIds root).map image).map h.stub? = part.roster root := by
    rw [List.map_map]
    exact List.map_congr_left fun member hmember =>
      hbeside.stub?_new hview (hpart.mem_memberIds.mp hmember)
  rw [Graph.profile_nil, hbeside.header_root, roster, hbeside.members_root, List.map_append, hold,
    hnew]

include hh

omit hview hpart in
/-- What the root of the base has under a key, the root has under it. -/
theorem lookup_root_old {key : Key} {id : DeclId} (hid : base.lookup root key = some id) :
    h.lookup root key = some id := by
  obtain ⟨howner, hkey⟩ := hbase.lookup_eq_some.mp hid
  rw [hh.lookup_eq_some, ← hh.mem_memberIds, hbeside.members_root, hbeside.key?_old howner]
  exact ⟨List.mem_append_left _ (hbase.mem_memberIds.mpr howner), hkey⟩

/-- Under any other key the root has what the root of the part has under it. -/
theorem lookup_root_new {key : Key} (hkey : base.lookup root key = none) :
    h.lookup root key = (part.lookup root key).map image := by
  ext e
  rw [hh.lookup_eq_some, ← hh.mem_memberIds, hbeside.members_root, List.mem_append, List.mem_map,
    Option.map_eq_some_iff]
  constructor
  · rintro ⟨hold | ⟨d, hd, rfl⟩, heKey⟩
    · have howner := hbase.mem_memberIds.mp hold
      rw [hbeside.key?_old howner] at heKey
      rw [hbase.lookup_eq_some.mpr ⟨howner, heKey⟩] at hkey
      contradiction
    · have howner := hpart.mem_memberIds.mp hd
      rw [hbeside.key?_new hview howner] at heKey
      exact ⟨d, hpart.lookup_eq_some.mpr ⟨howner, heKey⟩, rfl⟩
  · rintro ⟨d, hfound, rfl⟩
    obtain ⟨howner, hdKey⟩ := hpart.lookup_eq_some.mp hfound
    exact ⟨Or.inr ⟨d, hpart.mem_memberIds.mpr howner, rfl⟩,
      (hbeside.key?_new hview howner).trans hdKey⟩

omit hview hpart in
/-- From what was there the same ways lead down. -/
theorem foldlM_lookup_old {x : DeclId} (hx : (base.owner? x).isSome) (rest : List Key) :
    rest.foldlM h.lookup x = rest.foldlM base.lookup x := by
  have hlookup : ∀ {x}, (base.owner? x).isSome → ∀ key,
      h.lookup (id x) key = (base.lookup x key).map id := by
    intro x hx
    obtain ⟨c, howner⟩ := Option.isSome_iff_exists.mp hx
    apply lookup_of_copied hbase hh
    · rw [id_eq, List.map_id, (hbeside.old howner).2]
    · exact fun member hmember => hbeside.key?_old (hbase.mem_memberIds.mp hmember)
  have hways := foldlM_lookup_of_copied hlookup
    (fun _ hfound => Option.isSome_of_eq_some (hbase.lookup_eq_some.mp hfound).1) hx rest
  rwa [Option.map_id, id_eq, id_eq] at hways

omit hbase in
/-- From a copy the ways lead down to the copies of what they led to. -/
theorem foldlM_lookup_new {d : DeclId} (hd : (part.owner? d).isSome) (rest : List Key) :
    rest.foldlM h.lookup (image d) = (rest.foldlM part.lookup d).map image := by
  refine foldlM_lookup_of_copied (fun {x} (hx : (part.owner? x).isSome) => ?_)
    (fun _ hfound => Option.isSome_of_eq_some (hpart.lookup_eq_some.mp hfound).1) hd rest
  obtain ⟨c, howner⟩ := Option.isSome_iff_exists.mp hx
  apply lookup_of_copied hpart hh (hbeside.new howner).2
  exact fun member hmember => hbeside.key?_new hview (hpart.mem_memberIds.mp hmember)

omit hview hpart in
/-- Where the root of the base has something under the first key, an address leads to what it led to
in the base. -/
theorem profile_cons_old {key : Key} (hkey : (base.lookup root key).isSome) (rest : List Key) :
    h.profile (key :: rest) = base.profile (key :: rest) := by
  obtain ⟨top, htop⟩ := Option.isSome_iff_exists.mp hkey
  have howned : (base.owner? top).isSome :=
    Option.isSome_of_eq_some (hbase.lookup_eq_some.mp htop).1
  have hlocated : h.locate (key :: rest) = base.locate (key :: rest) := by
    rw [locate_cons, locate_cons, hbeside.lookup_root_old hbase hh htop, htop, Option.bind_some,
      Option.bind_some, hbeside.foldlM_lookup_old hbase hh howned]
  cases hid : base.locate (key :: rest) with
  | none =>
      rw [profile_of_locate_eq_none hid, profile_of_locate_eq_none (hlocated.trans hid)]
  | some x =>
      have hway := hid
      rw [locate_cons, htop, Option.bind_some] at hway
      obtain ⟨c, howner⟩ :=
        Option.isSome_iff_exists.mp (hbase.isSome_owner?_of_foldlM howned hway)
      rw [profile_of_locate hid, profile_of_locate (hlocated.trans hid), (hbeside.old howner).1,
        hbeside.roster_old hbase howner]

/-- Any other address leads to the copy of what it led to in the part. -/
theorem profile_cons_new {key : Key} (hkey : base.lookup root key = none) (rest : List Key) :
    h.profile (key :: rest) = (part.profile (key :: rest)).map (Profile.through view) := by
  have hroot := hbeside.lookup_root_new hview hbase hpart hh hkey
  cases htop : part.lookup root key with
  | none =>
      rw [htop, Option.map_none] at hroot
      rw [profile_of_locate_eq_none, profile_of_locate_eq_none, Option.map_none] <;>
        rw [locate_cons] <;> simp only [hroot, htop, Option.bind_none]
  | some top =>
      rw [htop, Option.map_some] at hroot
      have howned : (part.owner? top).isSome :=
        Option.isSome_of_eq_some (hpart.lookup_eq_some.mp htop).1
      have hlocated : h.locate (key :: rest) = (part.locate (key :: rest)).map image := by
        rw [locate_cons, locate_cons, hroot, htop, Option.bind_some, Option.bind_some,
          hbeside.foldlM_lookup_new hview hpart hh howned]
      cases hid : part.locate (key :: rest) with
      | none =>
          rw [hid, Option.map_none] at hlocated
          rw [profile_of_locate_eq_none hid, profile_of_locate_eq_none hlocated, Option.map_none]
      | some d =>
          rw [hid, Option.map_some] at hlocated
          have hway := hid
          rw [locate_cons, htop, Option.bind_some] at hway
          obtain ⟨c, howner⟩ :=
            Option.isSome_iff_exists.mp (hpart.isSome_owner?_of_foldlM howned hway)
          rw [profile_of_locate hid, profile_of_locate hlocated, (hbeside.new howner).1,
            hbeside.roster_new hview hpart howner]
          rfl

end Beside

/-- If one graph is put beside two with the same profiles, as far as the view goes, the profiles are
the same after that. -/
theorem Beside.profiles {view : Decl → Decl} {g h part g' h' : Graph}
    {image image' : DeclId → DeclId}
    (hbesideG : Beside id g part g' image) (hbesideH : Beside view h part h' image')
    (hview : Transparent view) (hpart : Coherent part) (hg : Coherent g) (hg' : Coherent g')
    (hh : Coherent h) (hh' : Coherent h')
    (hprofiles : ∀ address, h.profile address = (g.profile address).map (Profile.through view))
    (address : List Key) :
    h'.profile address = (g'.profile address).map (Profile.through view) := by
  cases address with
  | nil =>
      have hroots := hprofiles []
      rw [Graph.profile_nil, Graph.profile_nil, Option.map_some, Option.some.injEq] at hroots
      obtain ⟨hheader, hroster⟩ := Profile.mk.inj hroots
      rw [hbesideH.profile_nil hview hh hpart, hbesideG.profile_nil Transparent.id hg hpart,
        Option.map_some, hheader, hroster]
      rfl
  | cons key rest =>
      have hkeys := isSome_lookup_root_of_profiles hprofiles key
      by_cases hkey : (g.lookup Graph.root key).isSome
      · rw [hbesideG.profile_cons_old hg hg' hkey,
          hbesideH.profile_cons_old hh hh' (hkeys.trans hkey), hprofiles]
      · have hnone := Option.not_isSome_iff_eq_none.mp hkey
        rw [← hkeys] at hkey
        rw [hbesideG.profile_cons_new Transparent.id hg hpart hg' hnone,
          hbesideH.profile_cons_new hview hh hpart hh' (Option.not_isSome_iff_eq_none.mp hkey),
          Option.map_map]
        congr 1
        funext p
        rw [Function.comp_apply, Profile.through, Profile.through, Profile.through, Option.map_id,
          id_eq]

end Graph
end DeclGraph

import DeclGraph.Proofs.Addresses
import DeclGraph.Proofs.References

/-!
# Graphs put together from parts

Parts that were built independently of each other are merged one by one into an
empty graph.  At plain addresses their containers come together and their counts of
issued names add up.  Anonymous classes and objects do not come together: each of
them, and whatever is in it, is copied when its part is merged, under a number that
is shifted by what the parts before it had issued at that address, and no later
merge touches the copy.

Main results:

- Theorem `Graph.CountedMerging.untouched_of_sealed`: a merge leaves alone what is
  sealed.
- Theorems `Graph.Placed.of_merging` and `Graph.Placed.merge`: what comes in gets its
  place, and keeps it in every merge after that.
- Theorem `Graph.Sharded.merge`: what holds of the parts so far holds with one part
  more.
- Theorem `Built.ofParts_sharded`: putting parts together goes through and keeps
  their anonymous classes and objects apart.
-/

namespace DeclGraph
namespace Graph

/-! ## What is sealed in a merge -/

namespace CountedMerging

variable {g other merged : Graph} {forest : Forest} {log : List Arrival}
  (hm : CountedMerging g other merged forest log) (hnames : NamesIssued g)
  (hcounts : ∀ address, PlainAddress address →
    g.countAt address + other.countAt address < UInt32.size)

include hm hnames hcounts

/-- A container of before that something came into is at the plain address of what came in. -/
theorem address_of_image_lt {d : DeclId} (hd : (other.key? d).isSome)
    (hlt : (imageIn log d).index < g.size) :
    PlainAddress (other.address d) ∧ g.address (imageIn log d) = other.address d := by
  rcases hm.image_cases hd with ⟨hsite, -⟩ | ⟨-, hle⟩
  · exact address_of_site hm.coherent hm.other_coherent hnames hm.names hcounts hsite
  · omega

/-- A sealed container gets a slot of its own. -/
theorem size_le_of_sealed {d : DeclId} (hd : (other.key? d).isSome) (hsealed : other.Sealed d) :
    g.size ≤ (imageIn log d).index :=
  Nat.le_of_not_lt fun hlt => hsealed (hm.address_of_image_lt hnames hcounts hd hlt).1

/-- Nothing comes into what is sealed. -/
theorem image_ne_of_sealed {x d : DeclId} (hsealed : g.Sealed x) (hd : (other.key? d).isSome) :
    imageIn log d ≠ x := by
  rintro rfl
  have hlt := hm.coherent.index_lt_of_sealed hsealed
  rcases hm.address_of_image_lt hnames hcounts hd hlt with ⟨hplain, haddress⟩
  exact hsealed (haddress ▸ hplain)

/-- A merge leaves alone what is sealed. -/
theorem untouched_of_sealed {x : DeclId} (hsealed : g.Sealed x) : merged.Sealed x ∧
    merged.header? x = g.header? x ∧ merged.memberIds x = g.memberIds x := by
  have hlt := hm.coherent.index_lt_of_sealed hsealed
  refine ⟨?_, hm.union.untouched hlt fun d hd => hm.image_ne_of_sealed hnames hcounts hsealed hd⟩
  rwa [Sealed, hm.logged.address_old hm.coherent hlt]

/-- What comes in inside of a sealed container is copied. -/
private theorem copied_of_sealed_owner {c d : DeclId} (hsealed : other.Sealed c)
    (howner : other.owner? d = some c) : g.size ≤ (imageIn log d).index ∧
      merged.owner? (imageIn log d) = some (imageIn log c) ∧
      merged.header? (imageIn log d) = (other.get? d).map fun decl =>
        ((g.planned other forest).rename d decl).header.distinctParents :=
  hm.copied_of_bare hm.apart (memberIds_of_size_le (hm.size_le_of_sealed hnames hcounts
    (hm.other_coherent.isSome_key?_of_owner? howner) hsealed)) howner

/-- What is sealed is copied. -/
theorem header?_of_sealed {d : DeclId} (hsealed : other.Sealed d) :
    merged.header? (imageIn log d) = (other.get? d).map fun decl =>
      ((g.planned other forest).rename d decl).header.distinctParents := by
  rcases hm.other_coherent.exists_owner_of_sealed hsealed with ⟨c, howner⟩
  rcases (hm.other_coherent.sealed_iff howner).mp hsealed with habove | ⟨key, hkey, -⟩
  · exact (hm.copied_of_sealed_owner hnames hcounts habove howner).2.2
  · have hd : (other.key? d).isSome := by rw [hkey, Option.isSome_some]
    exact hm.header?_of_new hm.apart hd (hm.size_le_of_sealed hnames hcounts hd hsealed)

/-- The members of what is sealed are copied in their order. -/
theorem memberIds_of_sealed {d : DeclId} (hsealed : other.Sealed d) :
    merged.memberIds (imageIn log d) = (other.memberIds d).map (imageIn log) := by
  cases hkey : other.key? d with
  | some key =>
      have hd : (other.key? d).isSome := by rw [hkey, Option.isSome_some]
      exact hm.memberIds_of_bare hm.apart hd
        (memberIds_of_size_le (hm.size_le_of_sealed hnames hcounts hd hsealed))
  | none =>
      have himage : merged.key? (imageIn log d) = none := by
        rw [key?_eq_header?, hm.header?_of_sealed hnames hcounts hsealed]
        cases hdecl : other.get? d with
        | none => rfl
        | some decl =>
            rw [Graph.key?, hdecl, Option.bind_some] at hkey
            simp [Renamings.key?_rename_eq_none_iff.mpr hkey]
      rw [memberIds_of_key?_eq_none hkey, memberIds_of_key?_eq_none himage, List.map_nil]

/-- What is sealed comes out sealed. -/
theorem sealed_image {d : DeclId} (hsealed : other.Sealed d) : merged.Sealed (imageIn log d) := by
  have hcontainer : ∀ {c : DeclId}, (other.key? c).isSome → other.Sealed c →
      merged.Sealed (imageIn log c) := fun hc habove hplain =>
    habove ((hm.address_image hc).2 hplain)
  rcases hm.other_coherent.exists_owner_of_sealed hsealed with ⟨c, howner⟩
  rcases (hm.other_coherent.sealed_iff howner).mp hsealed with habove | ⟨key, hkey, -⟩
  · have hinto := (hm.copied_of_sealed_owner hnames hcounts habove howner).2.1
    exact (hm.merged_coherent.sealed_iff hinto).mpr
      (Or.inl (hcontainer (hm.other_coherent.isSome_key?_of_owner? howner) habove))
  · exact hcontainer (by rw [hkey, Option.isSome_some]) hsealed

/-- Inside of a sealed container nothing gets another name. -/
theorem rename_of_sealed_owner {c d : DeclId} {decl : Decl} (hsealed : other.Sealed c)
    (howner : other.owner? d = some c) (hdecl : other.get? d = some decl) :
    (g.planned other forest).rename d decl =
      decl.mapTypes (g.planned other forest).redirect := by
  have hc := hm.other_coherent.isSome_key?_of_owner? howner
  have hoffset : g.offset other c = 0 := by
    rw [hm.offset_eq hc, issued_of_size_le (hm.size_le_of_sealed hnames hcounts hc hsealed)]
  have hname : ∀ key, decl.key? = some key →
      (g.planned other forest).nameOf d key.2 = key.2 := by
    intro key hkey
    have hdKey : other.key? d = some key := by rw [Graph.key?, hdecl, Option.bind_some, hkey]
    rw [planned, Renamings.nameOf_filterMap (hm.other_coherent.mem_ids hm.reads howner) howner
      hdKey, hoffset, Name.merged_zero]
  cases decl with
  | klass k => simp [Renamings.rename, Decl.mapTypes, ClassDecl.mapTypes, hname (.klass, k.name) rfl]
  | object o => simp [Renamings.rename, Decl.mapTypes, hname (.object, o.name) rfl]
  | _ => rfl

end CountedMerging

/-! ## Anonymous classes and objects at plain addresses -/

/-- The container `c` at a plain address holds the class or object `d` under the anonymous name with
the number `k`. -/
structure HoldsAnonymous (g : Graph) (address : List Key) (kind : Kind) (k : UInt32)
    (c d : DeclId) : Prop where
  plain : PlainAddress address
  located : g.locate address = some c
  not_package : kind ≠ .package
  found : g.lookup c (kind, Name.anonymous k) = some d

theorem isAnonymous_anonymous {kind : Kind} (hkind : kind ≠ .package) (k : UInt32) :
    Key.isAnonymous (kind, Name.anonymous k) = true :=
  Key.isAnonymous_iff.mpr ⟨hkind, k, Name.anonymousIndex?_anonymous k⟩

/-- An anonymous class or object is sealed. -/
theorem HoldsAnonymous.sealed {g : Graph} (hg : Coherent g) {address : List Key} {kind : Kind}
    {k : UInt32} {c d : DeclId} (h : g.HoldsAnonymous address kind k c d) : g.Sealed d := by
  rcases hg.lookup_eq_some.mp h.found with ⟨howner, hkey⟩
  exact (hg.sealed_iff howner).mpr (Or.inr ⟨_, hkey, isAnonymous_anonymous h.not_package k⟩)

/-- Its number was issued by its container, which counts from one. -/
theorem HoldsAnonymous.number_issued {g : Graph} (hg : Coherent g) (hnames : NamesIssued g)
    {address : List Key} {kind : Kind} {k : UInt32} {c d : DeclId}
    (h : g.HoldsAnonymous address kind k c d) : 0 < k.toNat ∧ k.toNat ≤ g.countAt address := by
  rcases hg.lookup_eq_some.mp h.found with ⟨howner, hkey⟩
  rcases hnames howner hkey h.not_package (Name.anonymousIndex?_anonymous k) with ⟨-, hle, hne⟩
  rw [← UInt32.toNat_inj.ne, UInt32.toNat_zero] at hne
  rw [countAt_of_locate h.located]
  exact ⟨Nat.pos_of_ne_zero hne, hle⟩

namespace CountedMerging

variable {g other merged : Graph} {forest : Forest} {log : List Arrival}
  (hm : CountedMerging g other merged forest log)

include hm

/-- What was held under an anonymous name is held under it still. -/
theorem holdsAnonymous_old {address : List Key} {kind : Kind} {k : UInt32} {c d : DeclId}
    (h : g.HoldsAnonymous address kind k c d) : merged.HoldsAnonymous address kind k c d :=
  { h with
    located := hm.locate_old h.located
    found := hm.logged.lookup_old hm.coherent h.found }

/-- An anonymous class or object comes in under its number, shifted by what had been issued at the
address of its container. -/
theorem holdsAnonymous_image {address : List Key} {kind : Kind} {k : UInt32} {c d : DeclId}
    (h : other.HoldsAnonymous address kind k c d) :
    k.toNat + g.countAt address < UInt32.size ∧
      merged.HoldsAnonymous address kind (k + UInt32.ofNat (g.countAt address))
        (imageIn log c) (imageIn log d) := by
  rcases hm.other_coherent.lookup_eq_some.mp h.found with ⟨howner, hkey⟩
  have hfits := hm.shift_fits howner hkey h.not_package (Name.anonymousIndex?_anonymous k)
  rcases hm.key?_image howner hkey with ⟨himage, hinto⟩
  rw [Name.merged_issued_name h.not_package, Name.shiftIndex_eq_add hfits] at himage
  rw [hm.countAt_eq_issued_image h.plain h.located, UInt32.ofNat_toNat]
  exact ⟨hfits,
    { plain := h.plain
      located := hm.locate_image h.plain h.located
      not_package := h.not_package
      found := hm.merged_coherent.lookup_eq_some.mpr ⟨hinto, himage⟩ }⟩

/-- The plan renames the anonymous classes and objects at plain addresses where names had been
issued. -/
theorem mem_planned_iff_holdsAnonymous (hnames : NamesIssued g)
    (hcounts : ∀ address, PlainAddress address →
      g.countAt address + other.countAt address < UInt32.size) {entry : Renaming} :
    entry ∈ g.planned other forest ↔ ∃ address kind k c,
      other.HoldsAnonymous address kind k c entry.source ∧ g.countAt address ≠ 0 ∧
      entry.name = Name.anonymous (k + UInt32.ofNat (g.countAt address)) ∧
      entry.fromPath = other.path entry.source ∧
      entry.toPath = merged.path (imageIn log entry.source) := by
  rw [hm.mem_planned_iff]
  constructor
  · intro hgiven
    rcases hgiven with ⟨c, kind, name, k, howner, hkey, hkind, hindex, hissued, hname, hpaths⟩
    obtain rfl := (hm.names howner hkey hkind hindex).1
    have hc := hm.other_coherent.isSome_key?_of_owner? howner
    have hold : (imageIn log c).index < g.size :=
      Nat.lt_of_not_le fun hle => hissued (issued_of_size_le hle)
    have hplain := (hm.address_of_image_lt hnames hcounts hc hold).1
    have hlocated := hm.other_coherent.locate_address hc
    refine ⟨other.address c, kind, k, c,
      { plain := hplain
        located := hlocated
        not_package := hkind
        found := hm.other_coherent.lookup_eq_some.mpr ⟨howner, hkey⟩ }, ?_⟩
    rw [hm.countAt_eq_issued_image hplain hlocated, UInt32.ofNat_toNat]
    rw [← UInt32.toNat_inj.ne, UInt32.toNat_zero] at hissued
    exact ⟨hissued, hname, hpaths⟩
  · intro hgiven
    rcases hgiven with ⟨address, kind, k, c, hholds, hcount, hname, hpaths⟩
    rcases hm.other_coherent.lookup_eq_some.mp hholds.found with ⟨howner, hkey⟩
    rw [hm.countAt_eq_issued_image hholds.plain hholds.located] at hcount hname
    rw [UInt32.ofNat_toNat] at hname
    rw [← UInt32.toNat_zero, UInt32.toNat_inj.ne] at hcount
    exact ⟨c, kind, _, k, howner, hkey, hholds.not_package, Name.anonymousIndex?_anonymous k,
      hcount, hname, hpaths⟩

end CountedMerging

/-! ## Parts and what they have become -/

/-- How many names several graphs have issued at an address, taken together. -/
def totalAt : List Graph → List Key → Nat
  | [], _ => 0
  | part :: parts, address => part.countAt address + totalAt parts address

@[simp]
theorem totalAt_nil (address : List Key) : totalAt [] address = 0 :=
  rfl

theorem totalAt_cons (part : Graph) (parts : List Graph) (address : List Key) :
    totalAt (part :: parts) address = part.countAt address + totalAt parts address :=
  rfl

theorem totalAt_append (parts more : List Graph) (address : List Key) :
    totalAt (parts ++ more) address = totalAt parts address + totalAt more address := by
  induction parts with
  | nil => simp
  | cons part parts ih => rw [List.cons_append, totalAt_cons, totalAt_cons, ih, Nat.add_assoc]

theorem totalAt_singleton (part : Graph) (address : List Key) :
    totalAt [part] address = part.countAt address :=
  rfl

/-- Counts add up to little if they are small everywhere. -/
theorem totalAt_le_of_forall {parts : List Graph} (n : Nat)
    (h : ∀ part ∈ parts, ∀ decl ∈ part.decls.toList, decl.issued.toNat ≤ n) (address : List Key) :
    totalAt parts address ≤ parts.length * n := by
  induction parts with
  | nil => simp
  | cons part parts ih =>
      rcases List.forall_mem_cons.mp h with ⟨hpart, hparts⟩
      have hcount := countAt_le_of_forall hpart address
      have htotal := ih hparts
      rw [totalAt_cons, List.length_cons, Nat.succ_mul]
      omega

/-- What is in the graph `part` has its place in the graph `merged`: `image` tells what its
declarations have become, `plan` which of its containers were renamed, and `before` how many names
had been issued at an address when it came in. -/
structure Placed (part merged : Graph) (before : List Key → Nat) (plan : Renamings)
    (image : DeclId → DeclId) : Prop where
  /-- A container becomes a container of its kind. -/
  kind : ∀ {d : DeclId}, (part.key? d).isSome → merged.kind? (image d) = part.kind? d
  /-- A plain address leads to what the container at that address has become. -/
  located : ∀ {address : List Key} {c : DeclId}, PlainAddress address →
    part.locate address = some c → merged.locate address = some (image c)
  /-- An anonymous class or object is at the same address, under its number shifted by what had been
  issued there. -/
  shifted : ∀ {address : List Key} {kind : Kind} {k : UInt32} {c d : DeclId},
    part.HoldsAnonymous address kind k c d → k.toNat + before address < UInt32.size ∧
      merged.HoldsAnonymous address kind (k + UInt32.ofNat (before address)) (image c) (image d)
  /-- An anonymous class or object is sealed. -/
  anonymous : ∀ {address : List Key} {kind : Kind} {k : UInt32} {c d : DeclId},
    part.HoldsAnonymous address kind k c d → part.Sealed d
  /-- What is sealed comes out sealed. -/
  sealed : ∀ {d : DeclId}, part.Sealed d → merged.Sealed (image d)
  /-- What is sealed is copied under the name that it gets, and what it refers to is renamed. A class
  mentions each of its parents once. -/
  header : ∀ {d : DeclId}, part.Sealed d → merged.header? (image d) =
    (part.get? d).map fun decl => (plan.rename d decl).header.distinctParents
  /-- Its members are the copies of its members, in their order, and no others. -/
  members : ∀ {d : DeclId}, part.Sealed d →
    merged.memberIds (image d) = (part.memberIds d).map image
  /-- These keep their names. -/
  name_kept : ∀ {c d : DeclId} {decl : Decl}, part.Sealed c → part.owner? d = some c →
    part.get? d = some decl → plan.rename d decl = decl.mapTypes plan.redirect
  /-- The anonymous classes and objects whose numbers are shifted are renamed, from their path to the
  path that they get. -/
  renamed : ∀ {entry : Renaming}, entry ∈ plan ↔ ∃ address kind k c,
    part.HoldsAnonymous address kind k c entry.source ∧ before address ≠ 0 ∧
    entry.name = Name.anonymous (k + UInt32.ofNat (before address)) ∧
    entry.fromPath = part.path entry.source ∧ entry.toPath = merged.path (image entry.source)
  /-- They are renamed in the order in which they are read. -/
  order : ∃ forest, part.forest (root.index + 1) (part.memberIds root) = .ok forest ∧
    (plan.map Renaming.source).Sublist forest.ids
  /-- On every path in a type that is redirected, the innermost renamed container is exchanged for
  its new path, and all other paths stay. -/
  rewrites : plan.Rewrites

namespace Placed

variable {g part other merged : Graph} {before : List Key → Nat} {plan : Renamings}
  {image : DeclId → DeclId} {forest : Forest} {log : List Arrival}

/-- What a container becomes is a container. -/
theorem isSome_key? (hplaced : Placed part g before plan image) {d : DeclId}
    (hd : (part.key? d).isSome) : (g.key? (image d)).isSome := by
  rw [isSome_key?_iff_kind?, hplaced.kind hd, ← isSome_key?_iff_kind?]
  exact hd

/-- What comes in gets its place. -/
theorem of_merging (hm : CountedMerging g part merged forest log) (hnames : NamesIssued g)
    (hcounts : ∀ address, PlainAddress address →
      g.countAt address + part.countAt address < UInt32.size)
    (hbefore : ∀ address, PlainAddress address → g.countAt address = before address) :
    Placed part merged before (g.planned part forest) (imageIn log) where
  kind := hm.kind?_image
  located := fun hplain hc => hm.locate_image hplain hc
  shifted := fun hholds => hbefore _ hholds.plain ▸ hm.holdsAnonymous_image hholds
  anonymous := fun hholds => hholds.sealed hm.other_coherent
  sealed := hm.sealed_image hnames hcounts
  header := hm.header?_of_sealed hnames hcounts
  members := hm.memberIds_of_sealed hnames hcounts
  name_kept := hm.rename_of_sealed_owner hnames hcounts
  renamed := by
    intro entry
    rw [hm.mem_planned_iff_holdsAnonymous hnames hcounts]
    constructor
    · rintro ⟨address, kind, k, c, hholds, hentry⟩
      rw [hbefore address hholds.plain] at hentry
      exact ⟨address, kind, k, c, hholds, hentry⟩
    · rintro ⟨address, kind, k, c, hholds, hentry⟩
      rw [← hbefore address hholds.plain] at hentry
      exact ⟨address, kind, k, c, hholds, hentry⟩
  order := ⟨forest, hm.forest_eq, sources_planned_sublist g part forest⟩
  rewrites := (g.planned part forest).rewrites

/-- What has its place keeps it in a merge. -/
theorem merge (hplaced : Placed part g before plan image)
    (hm : CountedMerging g other merged forest log) (hnames : NamesIssued g)
    (hcounts : ∀ address, PlainAddress address →
      g.countAt address + other.countAt address < UInt32.size) :
    Placed part merged before plan image where
  kind := by
    intro d hd
    rcases Option.isSome_iff_exists.mp (hplaced.isSome_key? hd) with ⟨key, hkey⟩
    rw [(hm.logged.key?_old hm.coherent (index_lt_of_key? hkey)).2, hplaced.kind hd]
  located := fun hplain hc => hm.locate_old (hplaced.located hplain hc)
  shifted := by
    intro address kind k c d hholds
    rcases hplaced.shifted hholds with ⟨hfits, hthere⟩
    exact ⟨hfits, hm.holdsAnonymous_old hthere⟩
  anonymous := hplaced.anonymous
  sealed := fun hd => (hm.untouched_of_sealed hnames hcounts (hplaced.sealed hd)).1
  header := by
    intro d hd
    rw [(hm.untouched_of_sealed hnames hcounts (hplaced.sealed hd)).2.1, hplaced.header hd]
  members := by
    intro d hd
    rw [(hm.untouched_of_sealed hnames hcounts (hplaced.sealed hd)).2.2, hplaced.members hd]
  name_kept := hplaced.name_kept
  renamed := by
    intro entry
    have hpath : ∀ {address kind k c d}, part.HoldsAnonymous address kind k c d →
        merged.path (image d) = g.path (image d) := by
      intro address kind k c d hholds
      have hthere := hm.coherent.lookup_eq_some.mp (hplaced.shifted hholds).2.found
      exact hm.path_old (by rw [hthere.2, Option.isSome_some])
    rw [hplaced.renamed]
    constructor
    · rintro ⟨address, kind, k, c, hholds, hentry⟩
      rw [← hpath hholds] at hentry
      exact ⟨address, kind, k, c, hholds, hentry⟩
    · rintro ⟨address, kind, k, c, hholds, hentry⟩
      rw [hpath hholds] at hentry
      exact ⟨address, kind, k, c, hholds, hentry⟩
  order := hplaced.order
  rewrites := hplaced.rewrites

end Placed

/-- The graph `merged` holds what is in the parts: `image i` tells what the declarations of the part
number `i` have become, and `plan i` which of its containers were renamed. -/
structure Sharded (parts : List Graph) (merged : Graph) (plan : Nat → Renamings)
    (image : Nat → DeclId → DeclId) : Prop where
  /-- Each part has its place, and its anonymous classes and objects come after those of the parts
  before it. -/
  placed : ∀ {i : Nat} {part : Graph}, parts[i]? = some part →
    Placed part merged (totalAt (parts.take i)) (plan i) (image i)
  /-- At a plain address the counts of issued names add up. -/
  counted : ∀ {address : List Key}, PlainAddress address →
    merged.countAt address = totalAt parts address
  /-- A sealed container has its slot for itself: nothing else of any part becomes it. -/
  alone : ∀ {i j : Nat} {part part' : Graph} {d d' : DeclId}, parts[i]? = some part →
    parts[j]? = some part' → part.Sealed d → (part.key? d).isSome → (part'.key? d').isSome →
    image i d = image j d' → i = j ∧ d = d'
  /-- At one address, anonymous classes and objects of later parts have greater numbers. -/
  ascending : ∀ {i j : Nat} {part part' : Graph} {address : List Key} {kind kind' : Kind}
    {k k' : UInt32} {c c' d d' : DeclId}, parts[i]? = some part → parts[j]? = some part' →
    part.HoldsAnonymous address kind k c d → part'.HoldsAnonymous address kind' k' c' d' → i < j →
    k.toNat + totalAt (parts.take i) address < k'.toNat + totalAt (parts.take j) address

/-- A part of a list with one part more is one of those before, or the last one. -/
private theorem getElem?_append_singleton_cases {parts : List Graph} {last part : Graph} {i : Nat}
    (h : (parts ++ [last])[i]? = some part) :
    (i < parts.length ∧ parts[i]? = some part ∧ (parts ++ [last]).take i = parts.take i) ∨
      (i = parts.length ∧ part = last ∧ (parts ++ [last]).take i = parts) := by
  rcases Nat.lt_trichotomy i parts.length with hlt | rfl | hgt
  · left
    rw [List.getElem?_append_left hlt] at h
    exact ⟨hlt, h, List.take_append_of_le_length (Nat.le_of_lt hlt)⟩
  · right
    rw [List.getElem?_concat_length] at h
    exact ⟨rfl, (Option.some.inj h).symm, List.take_left⟩
  · rw [List.getElem?_eq_none (by rw [List.length_append, List.length_singleton]; exact hgt)] at h
    contradiction

namespace Sharded

theorem empty (plan : Nat → Renamings) (image : Nat → DeclId → DeclId) :
    Sharded [] Graph.empty plan image where
  placed := by simp
  counted := by
    intro address hplain
    unfold countAt
    cases Graph.empty.locate address with
    | none => rfl
    | some c => simp [issued_empty]
  alone := by simp
  ascending := by simp

variable {parts : List Graph} {g part merged : Graph} {plan : Nat → Renamings}
  {image : Nat → DeclId → DeclId} {forest : Forest} {log : List Arrival}
  (hsharded : Sharded parts g plan image) (hm : CountedMerging g part merged forest log)
  (hnames : NamesIssued g) (hcounts : ∀ address, PlainAddress address →
    g.countAt address + part.countAt address < UInt32.size)

include hsharded hm hnames hcounts

/-- What holds of the parts so far holds with one part more, after it was merged. -/
theorem merge : Sharded (parts ++ [part]) merged
    (Function.update plan parts.length (g.planned part forest))
    (Function.update image parts.length (imageIn log)) where
  placed := by
    intro i part' hi
    rcases getElem?_append_singleton_cases hi with ⟨hlt, hbefore, htake⟩ | ⟨rfl, rfl, htake⟩
    · rw [Function.update_of_ne (Nat.ne_of_lt hlt), Function.update_of_ne (Nat.ne_of_lt hlt), htake]
      exact (hsharded.placed hbefore).merge hm hnames hcounts
    · rw [Function.update_self, Function.update_self, htake]
      exact Placed.of_merging hm hnames hcounts fun _ hplain => hsharded.counted hplain
  counted := by
    intro address hplain
    rw [hm.countAt_merged hplain, hsharded.counted hplain, totalAt_append, totalAt_singleton]
  alone := by
    intro i j first second d d' hi hj hsealed hd hd' hsame
    rcases getElem?_append_singleton_cases hi with ⟨hlt, hiOld, -⟩ | ⟨rfl, rfl, -⟩ <;>
      rcases getElem?_append_singleton_cases hj with ⟨hlt', hjOld, -⟩ | ⟨rfl, rfl, -⟩
    · rw [Function.update_of_ne (Nat.ne_of_lt hlt),
        Function.update_of_ne (Nat.ne_of_lt hlt')] at hsame
      exact hsharded.alone hiOld hjOld hsealed hd hd' hsame
    · -- What was sealed is not come into.
      rw [Function.update_of_ne (Nat.ne_of_lt hlt), Function.update_self] at hsame
      exact absurd hsame.symm
        (hm.image_ne_of_sealed hnames hcounts ((hsharded.placed hiOld).sealed hsealed) hd')
    · -- What comes in sealed gets a new slot.
      rw [Function.update_of_ne (Nat.ne_of_lt hlt'), Function.update_self] at hsame
      have hnew := hm.size_le_of_sealed hnames hcounts hd hsealed
      rcases Option.isSome_iff_exists.mp ((hsharded.placed hjOld).isSome_key? hd') with ⟨key, hkey⟩
      have hold := index_lt_of_key? hkey
      rw [hsame] at hnew
      omega
    · rw [Function.update_self] at hsame
      exact ⟨rfl, hm.image_injective hm.apart hd hd' hsame⟩
  ascending := by
    intro i j first second address kind kind' k k' c c' d d' hi hj hholds hholds' hlt
    rcases getElem?_append_singleton_cases hj with ⟨hlt', hjOld, htake'⟩ | ⟨rfl, rfl, htake'⟩
    · rcases getElem?_append_singleton_cases hi with ⟨-, hiOld, htake⟩ | ⟨rfl, -, -⟩
      · rw [htake, htake']
        exact hsharded.ascending hiOld hjOld hholds hholds' hlt
      · omega
    · rcases getElem?_append_singleton_cases hi with ⟨-, hiOld, htake⟩ | ⟨rfl, -, -⟩
      · -- What was there has a number that was issued before, what comes in counts on from there.
        rcases (hsharded.placed hiOld).shifted hholds with ⟨hfits, hthere⟩
        have hle := (hthere.number_issued hm.coherent hnames).2
        have hpos := (hholds'.number_issued hm.other_coherent hm.names).1
        rw [hsharded.counted hholds.plain, UInt32.toNat_add,
          UInt32.toNat_ofNat_of_lt' (Nat.lt_of_le_of_lt (Nat.le_add_left _ _) hfits),
          Nat.mod_eq_of_lt hfits] at hle
        rw [htake, htake']
        omega
      · omega

end Sharded

end Graph

open DeclGraph.Graph

/-! ## Putting parts together -/

/-- Merging more parts goes through, as long as there are slots and counts for what comes in. -/
theorem Built.exists_sharded {record : Record} {g : Graph} {parts more : List Graph}
    {plan : Nat → Renamings} {image : Nat → DeclId → DeclId} (hg : Built issuedName record g)
    (hsharded : Sharded parts g plan image)
    (hmore : ∀ part ∈ more, ∃ partRecord, Built issuedName partRecord part)
    (hsize : ((mergeAll more).final g).size < UInt32.size)
    (hcounts : ∀ address, PlainAddress address → totalAt (parts ++ more) address < UInt32.size) :
    ∃ merged plan image, mergeAll more g = .ok () merged ∧ Built issuedName record merged ∧
      Sharded (parts ++ more) merged plan image := by
  induction more generalizing record g parts plan image with
  | nil => exact ⟨g, plan, image, rfl, hg, by rwa [List.append_nil]⟩
  | cons part more ih =>
      rcases List.forall_mem_cons.mp hmore with ⟨⟨partRecord, hpart⟩, hmore⟩
      rw [List.append_cons] at hcounts ⊢
      have hfit : ∀ address, PlainAddress address →
          g.countAt address + part.countAt address < UInt32.size := by
        intro address hplain
        have hbound := hcounts address hplain
        rw [totalAt_append, totalAt_append, totalAt_singleton, ← hsharded.counted hplain] at hbound
        omega
      have hnext : ((Graph.merge part).final g).size < UInt32.size :=
        Nat.lt_of_le_of_lt (Build.size_final_le_bind (fun _ => growing_mergeAll more) g) hsize
      rcases hg.exists_merging hpart hnext with ⟨next, forest, log, hmerge, hm⟩
      have hcounted : CountedMerging g part next forest log :=
        { hm with
          names := hpart.namesIssued
          counts := countsFit_of_countAt hg.coherent hpart.coherent hg.namesIssued
            hpart.namesIssued hfit }
      rw [Build.final_of_ok hmerge] at hnext
      rw [mergeAll_cons, Build.final_bind_of_ok hmerge] at hsize
      rw [mergeAll_cons, Build.bind_of_ok hmerge]
      exact ih (hg.merge hpart hmerge hnext)
        (hsharded.merge hcounted hg.namesIssued hfit) hmore hsize hcounts

/-- To put parts together is to merge them one by one into the empty graph. -/
theorem Graph.ofParts_eq_ok_iff {parts : List Graph} {merged : Graph} :
    ofParts parts = .ok merged ↔ mergeAll parts Graph.empty = .ok () merged := by
  unfold ofParts
  cases mergeAll parts Graph.empty <;> simp

/-- Putting parts together goes through and keeps their anonymous classes and objects apart: at
plain addresses, each of them is found under its number, shifted by what the parts before its own
had issued there, and what is in it is the copy of what was in it. -/
theorem Built.ofParts_sharded {parts : List Graph}
    (hparts : ∀ part ∈ parts, ∃ record, Built issuedName record part)
    (hsize : ((mergeAll parts).final Graph.empty).size < UInt32.size)
    (hcounts : ∀ address, PlainAddress address → totalAt parts address < UInt32.size) :
    ∃ merged plan image, Graph.ofParts parts = .ok merged ∧ Built issuedName {} merged ∧
      Sharded parts merged plan image := by
  rcases Built.new.exists_sharded (Sharded.empty (fun _ => []) fun _ => id) hparts hsize hcounts
    with ⟨merged, plan, image, hmerge, hbuilt, hsharded⟩
  exact ⟨merged, plan, image, Graph.ofParts_eq_ok_iff.mpr hmerge, hbuilt, hsharded⟩

/-- Two parts with an anonymous class each in the class `C`, the second with a field that refers to
it and goes on doing so under the shifted number. -/
theorem ofParts_sharded_of_namesakes : ∃ first second,
    (∀ part ∈ [first, second], ∃ record, Built issuedName record part) ∧
    first.HoldsAnonymous [(.klass, ⟨"C"⟩)] .klass 1 ⟨1⟩ ⟨2⟩ ∧
    second.HoldsAnonymous [(.klass, ⟨"C"⟩)] .klass 1 ⟨1⟩ ⟨2⟩ ∧
    totalAt [first] [(.klass, ⟨"C"⟩)] = 1 ∧
    second.get? ⟨3⟩ = some (.field
      { name := ⟨"r"⟩
        type := ⟨⟨[⟨"C"⟩, Name.anonymous 1]⟩, []⟩ }) ∧
    ∃ merged plan image, Graph.ofParts [first, second] = .ok merged ∧
      merged.get? ⟨5⟩ = some (.field
        { name := ⟨"r"⟩
          type := ⟨⟨[⟨"C"⟩, Name.anonymous 2]⟩, []⟩ }) ∧
      Built issuedName {} merged ∧ Sharded [first, second] merged plan image := by
  have hfirst := built_played [.klass root ⟨"C"⟩, .issueName ⟨1⟩, .klass ⟨1⟩ ⟨"anon$1"⟩,
    .method ⟨2⟩ ⟨"m"⟩] rfl
  have hsecond := built_played [.klass root ⟨"C"⟩, .issueName ⟨1⟩, .klass ⟨1⟩ ⟨"anon$1"⟩,
    .field ⟨2⟩ ⟨"r"⟩, .editField ⟨3⟩ ({ · with type := ⟨⟨[⟨"C"⟩, ⟨"anon$1"⟩]⟩, []⟩ })] rfl
  have hplain : PlainAddress [(.klass, ⟨"C"⟩)] := plainAddress_singleton.mpr (by decide +kernel)
  have hparts : ∀ part ∈ [_, _], ∃ record, Built issuedName record part :=
    List.forall_mem_cons.mpr ⟨⟨_, hfirst⟩, List.forall_mem_singleton.mpr ⟨_, hsecond⟩⟩
  obtain ⟨merged, plan, image, hmerged, hbuilt, hsharded⟩ :=
    Built.ofParts_sharded hparts (by decide +kernel) fun address _ =>
      Nat.lt_of_le_of_lt (totalAt_le_of_forall 1 (by decide +kernel) address) (by decide +kernel)
  obtain rfl := Build.final_of_ok (Graph.ofParts_eq_ok_iff.mp hmerged)
  exact ⟨_, _, hparts, ⟨hplain, by decide +kernel, by decide, by decide +kernel⟩,
    ⟨hplain, by decide +kernel, by decide, by decide +kernel⟩, by decide +kernel,
    by decide +kernel, _, plan, image, hmerged, by decide +kernel, hbuilt, hsharded⟩

end DeclGraph

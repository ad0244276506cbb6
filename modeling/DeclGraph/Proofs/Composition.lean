import DeclGraph.Proofs.Contents
import DeclGraph.Proofs.PlainReferences
import DeclGraph.Proofs.Shards

/-!
# The contents of a merged graph

A merge joins the contents of the two graphs: where both have a container at a plain
address, the one absorbs the other, and the sealed containers of both stay apart.
References stand in the way of saying so, since the plan of a merge redirects them
and the plan depends on both graphs.  Where they name nothing by an anonymous name,
there is nothing to redirect, and the contents of the result depend on the two
contents only.

Main results:

- Theorem `Graph.CountedMerging.content_image`: what comes into a container is joined
  to what it holds.
- Theorem `Graph.CountedMerging.locate_behind_of_le` and Theorem
  `Graph.CountedMerging.locate_behind_of_eq`: anonymous classes and objects come from the
  graph that their number belongs to.
- Theorem `Graph.CountedMerging.contents_merged`: a merge joins contents.
-/

namespace DeclGraph

/-! ## Entries and what they meet -/

/-- The merged name of an issued name is spelled as if it had been issued. -/
theorem Name.merged_eq_anonymous {n k : UInt32} {kind : Kind} {name : Name}
    (hkind : kind ≠ .package) (hindex : (merged n kind name).anonymousIndex? = some k)
    (hissued : ∀ l, name.anonymousIndex? = some l → name = anonymous l) :
    merged n kind name = anonymous k := by
  cases hname : name.anonymousIndex? with
  | none =>
      rw [merged_of_anonymousIndex?_eq_none hname, hname] at hindex
      contradiction
  | some l =>
      rw [hissued l hname, merged_issued_name hkind] at hindex ⊢
      rw [anonymousIndex?_anonymous] at hindex
      rw [Option.some.inj hindex]

namespace Entry

/-- The merged key of a container shifts its entry. -/
theorem ofKey_merged {n : UInt32} {key : Key}
    (hfits : ∀ k, key.1 ≠ .package → key.2.anonymousIndex? = some k →
      k.toNat + n.toNat < UInt32.size) :
    ofKey (key.1, Name.merged n key.1 key.2) = (ofKey key).shift n.toNat := by
  obtain ⟨kind, name⟩ := key
  by_cases hpackage : kind = .package
  · subst hpackage
    rw [Name.merged_package]
    rfl
  · cases hindex : name.anonymousIndex? with
    | none =>
        rw [Name.merged_of_anonymousIndex?_eq_none hindex]
        simp [ofKey, hpackage, hindex, shift]
    | some k =>
        by_cases hzero : n = 0
        · rw [hzero, Name.merged_zero, UInt32.toNat_zero, shift_zero]
        · have hfit := hfits k hpackage hindex
          rw [Name.merged_anonymous hzero hpackage hindex]
          simp only [ofKey, hpackage, if_false, Name.anonymousIndex?_anonymous, hindex, shift,
            Name.toNat_shiftIndex]
          congr 1
          omega

/-- What has the mark of a container is that container. -/
theorem eq_ofKey_of_mark?_eq {entry : Entry} {key : Key} (h : entry.mark? = (ofKey key).mark?) :
    entry = ofKey key := by
  have hkey : ofKey key = .named key ∨ ∃ kind number, ofKey key = .anonymous kind number := by
    unfold ofKey
    split
    · exact Or.inl rfl
    · split
      · exact Or.inl rfl
      · exact Or.inr ⟨_, _, rfl⟩
  obtain hnamed | ⟨kind, number, hanonymous⟩ := hkey
  · rw [hnamed] at h ⊢
    cases entry with
    | leaf decl => cases decl <;> simp [mark?] at h
    | named other => simpa [mark?] using h
    | anonymous otherKind other => simp [mark?] at h
  · rw [hanonymous] at h ⊢
    cases entry with
    | leaf decl => cases decl <;> simp [mark?] at h
    | named other => simp [mark?] at h
    | anonymous otherKind other => simpa [mark?] using h

theorem isSome_mark?_ofKey (key : Key) : (ofKey key).mark?.isSome := by
  unfold ofKey
  split
  · rfl
  · split <;> rfl

end Entry

/-! ## Bodies -/

namespace Decl

theorem key?_mapTypes (change : TypeExpr → TypeExpr) (decl : Decl) :
    (decl.mapTypes change).key? = decl.key? := by
  cases decl <;> rfl

/-- A class absorbs another one by joining it to its body. -/
theorem body?_absorb {old incoming : Decl} (hkind : old.kind = incoming.kind) :
    (incoming.absorb false old).body? = joinClass old.body? incoming.body? := by
  cases incoming <;> cases old <;> simp [kind] at hkind <;> rfl

end Decl

namespace Graph

/-- What a member of a container is, as merging sees it. -/
def entry (g : Graph) (id : DeclId) : Entry :=
  Entry.of (g.stub? id)

theorem entries_content (g : Graph) (id : DeclId) :
    (g.content id).entries = (g.memberIds id).map g.entry := by
  rw [content, roster, List.map_map]
  rfl

theorem entry_of_key? {g : Graph} {id : DeclId} {key : Key} (h : g.key? id = some key) :
    g.entry id = Entry.ofKey key := by
  rw [entry, stub?_eq_inl_iff.mpr h, Entry.of]

theorem entry_of_leaf {g : Graph} {id : DeclId} {decl : Decl} (h : g.get? id = some decl)
    (hleaf : decl.key? = none) : g.entry id = .leaf decl := by
  simp [entry, stub?, h, Decl.stub, hleaf, Entry.of]

/-- What has the mark of a method is a method with its signature. -/
theorem exists_method_of_mark? {g : Graph} {id : DeclId} {m : MethodDecl}
    (h : (g.entry id).mark? = (Entry.leaf (.method m)).mark?) :
    ∃ found, g.get? id = some (.method found) ∧ found.Alike m := by
  cases hget : g.get? id with
  | none => simp [entry, stub?, hget, Entry.of, Entry.mark?] at h
  | some decl =>
      cases hkey : decl.key? with
      | some key =>
          have hidKey : g.key? id = some key := by rw [Graph.key?, hget, Option.bind_some, hkey]
          rw [entry_of_key? hidKey] at h
          have hsame := Entry.eq_ofKey_of_mark?_eq h.symm
          unfold Entry.ofKey at hsame
          split at hsame
          · contradiction
          · split at hsame <;> contradiction
      | none =>
          rw [entry_of_leaf hget hkey] at h
          cases decl <;> simp [Entry.mark?] at h
          exact ⟨_, rfl, h⟩

/-- Beyond the slots there is nothing. -/
theorem content_of_size_le {g : Graph} {id : DeclId} (h : g.size ≤ id.index) :
    g.content id = {} := by
  simp [content, roster, header?, issued_of_size_le h, memberIds_of_size_le h,
    get?_eq_none_iff.mpr h]

/-- An address that goes on behind an anonymous class or object. -/
theorem locate_append_cons (g : Graph) (above : List Key) (key : Key) (below : List Key) :
    g.locate (above ++ key :: below) =
      (g.locate (above ++ [key])).bind fun id => below.foldlM g.lookup id := by
  rw [List.append_cons, locate, List.foldlM_append]
  rfl

/-- Nothing is indexed under a key exactly if the entry of a container with that key meets none. -/
theorem lookup_eq_none_iff_unmet {g : Graph} (hg : Coherent g) (hnames : NamesIssued g)
    {container : DeclId} {key : Key} (hissued : ∀ k, key.1 ≠ .package →
      key.2.anonymousIndex? = some k → key.2 = Name.anonymous k) :
    g.lookup container key = none ↔
      Entry.unmet (g.content container).entries (Entry.ofKey key) = true := by
  rw [Entry.unmet_iff, entries_content]
  constructor
  · intro hnone mark hmark entry hentry hsame
    obtain ⟨member, hmember, rfl⟩ := List.mem_map.mp hentry
    have howner := hg.mem_memberIds.mp hmember
    have hstub := stub_entry hg hnames howner
    rw [← entry, Entry.eq_ofKey_of_mark?_eq (hsame.trans hmark.symm),
      Entry.stub_ofKey hissued] at hstub
    have hfound := hg.lookup_eq_some.mpr ⟨howner, stub?_eq_inl_iff.mp hstub.symm⟩
    rw [hnone] at hfound
    contradiction
  · intro hunmet
    cases hlookup : g.lookup container key with
    | none => rfl
    | some member =>
        obtain ⟨howner, hkey⟩ := hg.lookup_eq_some.mp hlookup
        obtain ⟨mark, hmark⟩ := Option.isSome_iff_exists.mp (Entry.isSome_mark?_ofKey key)
        have hmet := hunmet mark hmark _ (List.mem_map_of_mem (hg.mem_memberIds.mpr howner))
        rw [entry_of_key? hkey] at hmet
        exact absurd hmark hmet

/-- There is no method like a declaration exactly if its entry meets none. -/
theorem not_hasAlike_iff_unmet {g : Graph} {container : DeclId} {decl : Decl} :
    ¬ g.HasAlike g.size container decl ↔
      Entry.unmet (g.content container).entries (.leaf decl) = true := by
  rw [Entry.unmet_iff, entries_content]
  constructor
  · intro hnot mark hmark entry hentry hsame
    obtain ⟨member, hmember, rfl⟩ := List.mem_map.mp hentry
    cases decl with
    | method m =>
        obtain ⟨found, hfound, hsignature⟩ := exists_method_of_mark? (hsame.trans hmark.symm)
        exact hnot ⟨member, hmember, index_lt_of_get? hfound, found, m, hfound, rfl, hsignature⟩
    | _ => simp [Entry.mark?] at hmark
  · rintro hunmet ⟨member, hmember, -, found, m, hfound, rfl, halike⟩
    have hmet := hunmet (.signature m.signature) rfl _ (List.mem_map_of_mem hmember)
    rw [entry_of_leaf hfound rfl] at hmet
    exact hmet (congrArg (fun signature => some (Mark.signature signature)) halike)

/-! ## What comes into a container -/

namespace CountedMerging

variable {g other merged : Graph} {forest : Forest} {log : List Arrival}
  (hm : CountedMerging g other merged forest log)

include hm

/-- What was there looks as it did. -/
theorem entry_old {id : DeclId} (hid : id.index < g.size) : merged.entry id = g.entry id := by
  have hkeys := (hm.logged.key?_old hm.coherent hid).1
  cases hkey : g.key? id with
  | some key => rw [entry_of_key? hkey, entry_of_key? (hkeys.trans hkey)]
  | none =>
      obtain ⟨decl, hdecl⟩ := exists_get? hid
      have hleaf : decl.key? = none := by rwa [Graph.key?, hdecl, Option.bind_some] at hkey
      rw [entry_of_leaf hdecl hleaf,
        entry_of_leaf (hm.logged.get?_old hm.coherent hdecl hleaf) hleaf]

/-- A container of before whose header and members stay holds what it held. -/
theorem content_old {id : DeclId} (hheader : merged.header? id = g.header? id)
    (hmembers : merged.memberIds id = g.memberIds id) : merged.content id = g.content id := by
  have hentries : (merged.content id).entries = (g.content id).entries := by
    rw [entries_content, entries_content, hmembers]
    apply List.map_congr_left
    intro member hmember
    exact hm.entry_old (hm.coherent.index_lt_of_owner? (hm.coherent.mem_memberIds.mp hmember))
  have hissued : merged.issued id = g.issued id := by
    rw [issued_eq_header?, hheader, issued_eq_header?]
  simp only [content] at hentries ⊢
  rw [hentries, hissued, hheader]

variable (hnames : NamesIssued g) (hplain : other.PlainReferences)

include hplain

/-- A new member looks as it did, with its number shifted. -/
theorem entry_image {d id : DeclId} (hd : (other.key? d).isSome)
    (hid : id ∈ newMembers g other (g.planned other forest) (imageIn log d) d) :
    merged.entry (imageIn log id) =
      (other.entry id).shift (g.issued (imageIn log d)).toNat := by
  have howner := hm.other_coherent.mem_memberIds.mp (List.mem_of_mem_filter hid)
  cases hkey : other.key? id with
  | some key =>
      rw [entry_of_key? hkey, entry_of_key? (hm.key?_image howner hkey).1]
      exact Entry.ofKey_merged fun k hkind hindex => hm.shift_fits howner hkey hkind hindex
  | none =>
      obtain ⟨decl, hdecl⟩ := exists_get? (hm.other_coherent.index_lt_of_owner? howner)
      have hleaf : decl.key? = none := by rwa [Graph.key?, hdecl, Option.bind_some] at hkey
      have hcopied := hm.union.copied hd hid hdecl hleaf
      rw [hm.rename_leaf_of_plain hplain hdecl hleaf] at hcopied
      rw [entry_of_leaf hdecl hleaf, entry_of_leaf hcopied hleaf]
      rfl

include hnames

/-- What comes in meets nothing exactly if its entry meets none. -/
theorem lacks_eq_unmet {d id : DeclId} {decl : Decl} (howner : other.owner? id = some d)
    (hdecl : other.get? id = some decl) :
    g.lacks (imageIn log d) ((g.planned other forest).rename id decl) =
      Entry.unmet (g.content (imageIn log d)).entries
        ((other.entry id).shift (g.issued (imageIn log d)).toNat) := by
  cases hkey : other.key? id with
  | some key =>
      have hfits : ∀ k, key.1 ≠ .package → key.2.anonymousIndex? = some k →
          k.toNat + (g.issued (imageIn log d)).toNat < UInt32.size :=
        fun k hkind hindex => hm.shift_fits howner hkey hkind hindex
      have hrenamed : ((g.planned other forest).rename id decl).key? =
          some (key.1, Name.merged (g.issued (imageIn log d)) key.1 key.2) := by
        rw [planned, Renamings.key?_rename (hm.other_coherent.mem_ids hm.reads howner) howner hdecl,
          mergedKey?_of_owner? howner hkey,
          hm.offset_eq (hm.other_coherent.isSome_key?_of_owner? howner)]
      rw [entry_of_key? hkey, ← Entry.ofKey_merged hfits, Bool.eq_iff_iff,
        lacks_container_iff hm.coherent hrenamed]
      apply lookup_eq_none_iff_unmet hm.coherent hnames
      intro k hkind hindex
      exact Name.merged_eq_anonymous hkind hindex fun l hl =>
        (hm.names howner hkey hkind hl).1
  | none =>
      have hleaf : decl.key? = none := by rwa [Graph.key?, hdecl, Option.bind_some] at hkey
      rw [entry_of_leaf hdecl hleaf, hm.rename_leaf_of_plain hplain hdecl hleaf, Bool.eq_iff_iff,
        lacks_leaf_iff hleaf]
      exact not_hasAlike_iff_unmet

omit hnames in
/-- A container keeps what it declares of itself when it is renamed. -/
theorem body?_rename {d : DeclId} {decl : Decl} (hdecl : other.get? d = some decl) :
    ((g.planned other forest).rename d decl).body? = decl.body? := by
  have hkept := congrArg Decl.body? (hm.mapTypes_of_plain hplain hdecl)
  cases decl <;> exact hkept

omit hnames in
/-- What a container declares of itself is joined to what is declared where it comes in. -/
theorem klass_image {d : DeclId} (hd : (other.key? d).isSome) :
    (merged.content (imageIn log d)).klass =
      joinClass (g.content (imageIn log d)).klass (other.content d).klass := by
  obtain ⟨key, hkey⟩ := Option.isSome_iff_exists.mp hd
  obtain ⟨decl, hdecl, hdeclKey⟩ := Option.bind_eq_some_iff.mp hkey
  have hincoming : (other.content d).klass = decl.body? := by
    rw [content, header?, hdecl, Option.map_some, Option.bind_some, Decl.body?_header]
  rw [hincoming]
  by_cases hlt : (imageIn log d).index < g.size
  · -- It comes into a container of its kind.
    obtain ⟨old, hold⟩ := exists_get? hlt
    obtain ⟨mergedKey, fresh, hrenamed, hfresh, hheader⟩ :=
      hm.header?_image hm.apart hdecl (Option.isSome_of_eq_some hdeclKey)
    rw [Bool.eq_false_iff.mpr (mt hfresh.mp (Nat.not_le_of_lt hlt))] at hheader
    have hkinds : old.header.kind = ((g.planned other forest).rename d decl).kind := by
      have hkinds := hm.kind?_image hd
      rw [(hm.logged.key?_old hm.coherent hlt).2, Graph.kind?, Graph.kind?, hold, hdecl] at hkinds
      rw [Decl.kind_header, Renamings.kind_rename]
      exact Option.some.inj hkinds
    have habsorbed := Decl.body?_absorb hkinds
    rw [content, hheader, content, header?, hold]
    simp only [Bool.false_eq_true, if_false, Option.map_some, Option.bind_some]
    rw [habsorbed, hm.body?_rename hplain hdecl]
  · rw [Nat.not_lt] at hlt
    rw [content_of_size_le hlt, content, hm.header?_of_new hm.apart hd hlt, hdecl,
      Option.map_some, Option.bind_some, Decl.body?_distinctParents, Decl.body?_header,
      hm.body?_rename hplain hdecl]
    rfl

/-- What comes into a container is joined to what it holds. -/
theorem content_image {d : DeclId} (hd : (other.key? d).isSome) :
    merged.content (imageIn log d) = (g.content (imageIn log d)).join (other.content d) := by
  have hentries : (merged.content (imageIn log d)).entries =
      Entry.join (g.issued (imageIn log d)).toNat (g.content (imageIn log d)).entries
        (other.content d).entries := by
    have hold : (g.memberIds (imageIn log d)).map merged.entry =
        (g.memberIds (imageIn log d)).map g.entry :=
      List.map_congr_left fun member hmember =>
        hm.entry_old (hm.coherent.index_lt_of_owner? (hm.coherent.mem_memberIds.mp hmember))
    have hkept : (other.memberIds d).filter (fun id => (other.get? id).any fun decl =>
          g.lacks (imageIn log d) ((g.planned other forest).rename id decl)) =
        (other.memberIds d).filter (Entry.unmet (g.content (imageIn log d)).entries ∘
          Entry.shift (g.issued (imageIn log d)).toNat ∘ other.entry) := by
      apply List.filter_congr
      intro id hid
      have howner := hm.other_coherent.mem_memberIds.mp hid
      obtain ⟨decl, hdecl⟩ := exists_get? (hm.other_coherent.index_lt_of_owner? howner)
      rw [hdecl, Option.any_some]
      exact hm.lacks_eq_unmet hnames hplain howner hdecl
    have hnew : ((newMembers g other (g.planned other forest) (imageIn log d) d).map
          (imageIn log)).map merged.entry =
        ((other.memberIds d).filter (Entry.unmet (g.content (imageIn log d)).entries ∘
          Entry.shift (g.issued (imageIn log d)).toNat ∘ other.entry)).map
          (Entry.shift (g.issued (imageIn log d)).toNat ∘ other.entry) := by
      rw [List.map_map, ← hkept]
      exact List.map_congr_left fun id hid => hm.entry_image hplain hd hid
    rw [entries_content, hm.memberIds_image hm.apart hd, List.map_append, hold, hnew,
      ← entries_content, Entry.join, entries_content other, List.map_map, List.filter_map]
  exact Content.ext (hm.issued_image hd) (hm.klass_image hplain hd) hentries

end CountedMerging

/-! ## What is sealed -/

/-- What is reached through an anonymous class or object is sealed. -/
theorem sealed_of_locate {g : Graph} (hg : Coherent g) {address : List Key} {id : DeclId}
    (hid : g.locate address = some id) (haddress : ¬ PlainAddress address) : g.Sealed id := by
  rwa [Sealed, (hg.locate_eq_some_iff.mp hid).2]

theorem not_plainAddress_behind (above below : List Key) {kind : Kind} (hkind : kind ≠ .package)
    (k : UInt32) : ¬ PlainAddress (above ++ (kind, Name.anonymous k) :: below) := by
  intro hplain
  have hkey := hplain _ (List.mem_append_right _ List.mem_cons_self)
  rw [isAnonymous_anonymous hkind] at hkey
  contradiction

/-- What is below something sealed is sealed. -/
theorem Sealed.of_lookup {g : Graph} (hg : Coherent g) {container member : DeclId} {key : Key}
    (hsealed : g.Sealed container) (hfound : g.lookup container key = some member) :
    g.Sealed member :=
  (hg.sealed_iff (hg.lookup_eq_some.mp hfound).1).mpr (Or.inl hsealed)

/-- An anonymous class or object at a plain address is where that address goes on with its key. -/
theorem locate_anonymous_iff {g : Graph} {address : List Key} (hplain : PlainAddress address)
    {kind : Kind} (hkind : kind ≠ .package) {k : UInt32} {d : DeclId} :
    g.locate (address ++ [(kind, Name.anonymous k)]) = some d ↔
      ∃ c, g.HoldsAnonymous address kind k c d := by
  rw [locate_append_singleton, Option.bind_eq_some_iff]
  constructor
  · rintro ⟨c, hlocated, hfound⟩
    exact ⟨c, { plain := hplain, located := hlocated, not_package := hkind, found := hfound }⟩
  · rintro ⟨c, hholds⟩
    exact ⟨c, hholds.located, hholds.found⟩

namespace CountedMerging

variable {g other merged : Graph} {forest : Forest} {log : List Arrival}
  (hm : CountedMerging g other merged forest log) (hnames : NamesIssued g)
  (hcounts : ∀ address, PlainAddress address →
    g.countAt address + other.countAt address < UInt32.size)

include hm hnames hcounts

/-- From what is sealed the same ways lead down after the merge. -/
theorem foldlM_lookup_of_sealed {x : DeclId} (hsealed : g.Sealed x) (below : List Key) :
    below.foldlM merged.lookup x = below.foldlM g.lookup x := by
  have hlookup : ∀ {x}, g.Sealed x → ∀ key,
      merged.lookup (id x) key = (g.lookup x key).map id := by
    intro x hsealed
    apply lookup_of_copied hm.coherent hm.merged_coherent
    · rw [id_eq, List.map_id, (hm.untouched_of_sealed hnames hcounts hsealed).2.2]
    · intro member hmember
      have howner := hm.coherent.mem_memberIds.mp hmember
      exact (hm.logged.key?_old hm.coherent (hm.coherent.index_lt_of_owner? howner)).1
  have hways := foldlM_lookup_of_copied hlookup
    (fun hd hfound => hd.of_lookup hm.coherent hfound) hsealed below
  rwa [Option.map_id, id_eq, id_eq] at hways

/-- What comes in inside of a sealed container keeps its key. -/
theorem key?_image_of_sealed {c d : DeclId} (hsealed : other.Sealed c)
    (howner : other.owner? d = some c) : merged.key? (imageIn log d) = other.key? d := by
  have hbelow := (hm.other_coherent.sealed_iff howner).mpr (Or.inl hsealed)
  rw [key?_eq_header?, hm.header?_of_sealed hnames hcounts hbelow]
  obtain ⟨decl, hdecl⟩ := exists_get? (hm.other_coherent.index_lt_of_owner? howner)
  rw [hdecl, Option.map_some, Option.bind_some, Graph.key?, hdecl, Option.bind_some,
    Decl.key?_distinctParents, Decl.key?_header,
    hm.rename_of_sealed_owner hnames hcounts hsealed howner hdecl, Decl.key?_mapTypes]

/-- From what comes in sealed the ways lead down to the images of what they led to. -/
theorem foldlM_lookup_image_of_sealed {d : DeclId} (hsealed : other.Sealed d) (below : List Key) :
    below.foldlM merged.lookup (imageIn log d) =
      (below.foldlM other.lookup d).map (imageIn log) := by
  apply foldlM_lookup_of_copied _ (fun hd hfound => hd.of_lookup hm.other_coherent hfound) hsealed
  intro d hsealed
  apply lookup_of_copied hm.other_coherent hm.merged_coherent
    (hm.memberIds_of_sealed hnames hcounts hsealed)
  intro member hmember
  exact hm.key?_image_of_sealed hnames hcounts hsealed
    (hm.other_coherent.mem_memberIds.mp hmember)

/-! ## What is behind an anonymous class or object -/

section Behind

variable {address : List Key} (haddress : PlainAddress address) {kind : Kind}
  (hkind : kind ≠ .package)

include haddress hkind

omit hnames hcounts in
/-- A new anonymous class or object comes in with a number that follows those that were issued. -/
theorem exists_incoming {n : UInt32} {x : DeclId}
    (hx : merged.locate (address ++ [(kind, Name.anonymous n)]) = some x)
    (hnew : g.size ≤ x.index) : ∃ c d k, other.HoldsAnonymous address kind k c d ∧
      n.toNat = k.toNat + g.countAt address := by
  obtain ⟨hxKey, hxAddress⟩ := hm.merged_coherent.locate_eq_some_iff.mp hx
  obtain ⟨key, hkey⟩ := Option.isSome_iff_exists.mp hxKey
  obtain ⟨a, ha, -, htarget⟩ :=
    hm.logged.exists_fresh hm.coherent hnew (index_lt_of_key? hkey)
  have hd : (other.key? a.source).isSome := by
    rwa [← (hm.logged.isSome_key?_target hm.coherent hm.other_coherent ha htarget).2]
  obtain rfl := hm.image_eq ha htarget
  obtain hroot | ⟨c, howner⟩ := hm.other_coherent.eq_root_or_owned hd
  · have hlt := index_lt_of_key? hm.coherent.key?_root
    rw [hroot, hm.image_root] at hnew
    omega
  · obtain ⟨⟨kind', name⟩, hdKey⟩ := Option.isSome_iff_exists.mp hd
    have hc := hm.other_coherent.isSome_key?_of_owner? howner
    obtain ⟨himage, hinto⟩ := hm.key?_image howner hdKey
    rw [hm.merged_coherent.address_of_owner? hinto, himage, Option.toList_some] at hxAddress
    obtain ⟨habove, hlast⟩ := List.append_inj' hxAddress rfl
    obtain ⟨rfl, hname⟩ := Prod.mk.inj (List.singleton_inj.mp hlast)
    -- Its container came from the same address.
    obtain ⟨hkept, hplain⟩ := hm.address_image hc
    have hcAddress := (hkept (hplain (habove ▸ haddress))).symm.trans habove
    have hlocated := hm.other_coherent.locate_eq_some_iff.mpr ⟨hc, hcAddress⟩
    have hindex : ∃ k, name.anonymousIndex? = some k := by
      rw [← Option.isSome_iff_exists, Option.isSome_iff_ne_none]
      intro hnone
      rw [Name.merged_of_anonymousIndex?_eq_none hnone] at hname
      rw [hname, Name.anonymousIndex?_anonymous] at hnone
      contradiction
    obtain ⟨k, hindex⟩ := hindex
    have hfits := hm.shift_fits howner hdKey hkind hindex
    obtain rfl := (hm.names howner hdKey hkind hindex).1
    rw [Name.merged_issued_name hkind] at hname
    have hnumber := congrArg Name.anonymousIndex? hname
    rw [Name.anonymousIndex?_anonymous, Name.anonymousIndex?_anonymous, Option.some.injEq,
      ← UInt32.toNat_inj, Name.toNat_shiftIndex] at hnumber
    refine ⟨c, a.source, k,
      { plain := haddress
        located := hlocated
        not_package := hkind
        found := hm.other_coherent.lookup_eq_some.mpr ⟨howner, hdKey⟩ }, ?_⟩
    rw [hm.countAt_eq_issued_image haddress hlocated]
    omega

/-- What has a number that was issued before was there. -/
theorem locate_behind_of_le {n : UInt32} (hn : n.toNat ≤ g.countAt address) (below : List Key) :
    merged.locate (address ++ (kind, Name.anonymous n) :: below) =
      g.locate (address ++ (kind, Name.anonymous n) :: below) := by
  have hhead : merged.locate (address ++ [(kind, Name.anonymous n)]) =
      g.locate (address ++ [(kind, Name.anonymous n)]) := by
    ext x
    constructor
    · intro hx
      by_cases hlt : x.index < g.size
      · exact hm.locate_of_lt hx hlt
      · obtain ⟨c, d, k, hholds, hnumber⟩ :=
          hm.exists_incoming haddress hkind hx (Nat.le_of_not_lt hlt)
        have hpos := (hholds.number_issued hm.other_coherent hm.names).1
        omega
    · exact hm.locate_old
  rw [merged.locate_append_cons, g.locate_append_cons, hhead]
  cases hx : g.locate (address ++ [(kind, Name.anonymous n)]) with
  | none => rfl
  | some x =>
      have hsealed := sealed_of_locate hm.coherent hx (not_plainAddress_behind address [] hkind n)
      exact hm.foldlM_lookup_of_sealed hnames hcounts hsealed below

/-- What has a later number comes in. -/
theorem locate_behind_of_eq {n m : UInt32} (hm0 : 0 < m.toNat)
    (hn : n.toNat = m.toNat + g.countAt address) (below : List Key) :
    merged.locate (address ++ (kind, Name.anonymous n) :: below) =
      (other.locate (address ++ (kind, Name.anonymous m) :: below)).map (imageIn log) := by
  have hhead : merged.locate (address ++ [(kind, Name.anonymous n)]) =
      (other.locate (address ++ [(kind, Name.anonymous m)])).map (imageIn log) := by
    cases hd : other.locate (address ++ [(kind, Name.anonymous m)]) with
    | some d =>
        obtain ⟨c, hholds⟩ := (locate_anonymous_iff haddress hkind).mp hd
        obtain ⟨hfits, himage⟩ := hm.holdsAnonymous_image hholds
        have hshifted : m + UInt32.ofNat (g.countAt address) = n := by
          apply UInt32.toNat_inj.mp
          rw [UInt32.toNat_add, UInt32.toNat_ofNat_of_lt' (by omega), Nat.mod_eq_of_lt hfits, hn]
        rw [hshifted] at himage
        exact (locate_anonymous_iff haddress hkind).mpr ⟨_, himage⟩
    | none =>
        rw [Option.map_none, Option.eq_none_iff_forall_ne_some]
        intro x hx
        by_cases hlt : x.index < g.size
        · obtain ⟨c, hholds⟩ :=
            (locate_anonymous_iff haddress hkind).mp (hm.locate_of_lt hx hlt)
          have hle := (hholds.number_issued hm.coherent hnames).2
          omega
        · obtain ⟨c, d, k, hholds, hnumber⟩ :=
            hm.exists_incoming haddress hkind hx (Nat.le_of_not_lt hlt)
          obtain rfl : k = m := UInt32.toNat_inj.mp (by omega)
          rw [(locate_anonymous_iff haddress hkind).mpr ⟨c, hholds⟩] at hd
          contradiction
  rw [merged.locate_append_cons, other.locate_append_cons, hhead]
  cases hd : other.locate (address ++ [(kind, Name.anonymous m)]) with
  | none => rfl
  | some d =>
      have hsealed :=
        sealed_of_locate hm.other_coherent hd (not_plainAddress_behind address [] hkind m)
      exact hm.foldlM_lookup_image_of_sealed hnames hcounts hsealed below

end Behind

end CountedMerging

/-! ## Merges join contents -/

namespace CountedMerging

variable {g other merged : Graph} {forest : Forest} {log : List Arrival}
  (hm : CountedMerging g other merged forest log) (hnames : NamesIssued g)
  (hplain : other.PlainReferences) (hcounts : ∀ address, PlainAddress address →
    g.countAt address + other.countAt address < UInt32.size)

include hm

/-- At a plain address there was what comes in there comes into, or nothing. -/
theorem contents_plain_of_came {address : {address : List Key // PlainAddress address}}
    {d : DeclId} (hd : other.locate address.1 = some d) :
    g.contents (.plain address) = g.content (imageIn log d) := by
  have himage := hm.locate_image address.2 hd
  rw [contents_plain]
  cases he : g.locate address.1 with
  | some e =>
      obtain rfl := Option.some.inj ((hm.locate_old he).symm.trans himage)
      rfl
  | none =>
      rw [content_of_size_le, Option.elim_none]
      rw [← Nat.not_lt]
      intro hlt
      rw [hm.locate_of_lt himage hlt] at he
      contradiction

include hnames hplain

/-- At a plain address a merge joins contents. -/
theorem contents_merged_plain (address : {address : List Key // PlainAddress address}) :
    merged.contents (.plain address) =
      (g.contents (.plain address)).join (other.contents (.plain address)) := by
  cases hd : other.locate address.1 with
  | some d =>
      rw [hm.contents_plain_of_came hd, contents_plain, contents_plain,
        hm.locate_image address.2 hd, hd]
      exact hm.content_image hnames hplain (hm.other_coherent.locate_eq_some_iff.mp hd).1
  | none =>
      rw [contents_plain, contents_plain, contents_plain, hm.locate_of_stayed address.2 hd, hd,
        Option.elim_none, Content.join_nothing]
      cases he : g.locate address.1 with
      | none => rfl
      | some e =>
          obtain ⟨hheader, hmembers⟩ := hm.untouched_of_stayed address.2 hd he
          exact hm.content_old hheader hmembers

include hcounts

/-- Behind an anonymous class or object there is what was there, or what comes in there. -/
theorem contents_merged_behind (address : {address : List Key // PlainAddress address})
    (kind : {kind : Kind // kind ≠ .package}) (number : Nat) (below : List Key) :
    merged.contents (.behind address kind number below) =
      g.contents.join other.contents (.behind address kind number below) := by
  have hsum := hm.countAt_merged address.2
  have hfits := hcounts _ address.2
  by_cases hold : number ≤ g.countAt address.1
  · -- The number was issued before.
    have hthere : number ≤ merged.countAt address.1 := by omega
    rw [Contents.join_behind_of_le (by rwa [issued_contents_plain]),
      contents_of_reaches (reaches_behind_iff.mpr hold),
      contents_of_reaches (reaches_behind_iff.mpr hthere)]
    have hnumber : (UInt32.ofNat number).toNat = number := UInt32.toNat_ofNat_of_lt' (by omega)
    have hlocated := hm.locate_behind_of_le hnames hcounts address.2 kind.2
      (n := UInt32.ofNat number) (by omega) below
    rw [Place.address, hlocated]
    cases hx : g.locate (address.1 ++ (kind.1, Name.anonymous (UInt32.ofNat number)) :: below) with
    | none => rfl
    | some x =>
        have hsealed := sealed_of_locate hm.coherent hx (not_plainAddress_behind _ _ kind.2 _)
        obtain ⟨-, hheader, hmembers⟩ := hm.untouched_of_sealed hnames hcounts hsealed
        exact hm.content_old hheader hmembers
  · rw [Nat.not_le] at hold
    rw [Contents.join_behind_of_lt (by rwa [issued_contents_plain]), issued_contents_plain]
    by_cases hnew : number ≤ merged.countAt address.1
    · -- The number is that of something that comes in.
      have hcame : number - g.countAt address.1 ≤ other.countAt address.1 := by omega
      rw [contents_of_reaches (reaches_behind_iff.mpr hnew),
        contents_of_reaches (reaches_behind_iff.mpr hcame)]
      have hnumber : (UInt32.ofNat number).toNat = number := UInt32.toNat_ofNat_of_lt' (by omega)
      have hearlier : (UInt32.ofNat (number - g.countAt address.1)).toNat =
          number - g.countAt address.1 := UInt32.toNat_ofNat_of_lt' (by omega)
      have hlocated := hm.locate_behind_of_eq hnames hcounts address.2 kind.2
        (n := UInt32.ofNat number) (m := UInt32.ofNat (number - g.countAt address.1))
        (by omega) (by omega) below
      rw [Place.address, Place.address, hlocated]
      cases hd : other.locate (address.1 ++
          (kind.1, Name.anonymous (UInt32.ofNat (number - g.countAt address.1))) :: below) with
      | none => rfl
      | some d =>
          have hsealed :=
            sealed_of_locate hm.other_coherent hd (not_plainAddress_behind _ _ kind.2 _)
          have hdKey := (hm.other_coherent.locate_eq_some_iff.mp hd).1
          have hbare := content_of_size_le (hm.size_le_of_sealed hnames hcounts hdKey hsealed)
          rw [Option.map_some, Option.elim_some, Option.elim_some,
            hm.content_image hnames hplain hdKey, hbare]
    · -- Nothing has got that number yet.
      have hnever : ¬ number - g.countAt address.1 ≤ other.countAt address.1 := by omega
      rw [contents_of_not_reaches (mt reaches_behind_iff.mp hnew),
        contents_of_not_reaches (mt reaches_behind_iff.mp hnever), Content.join_nothing]

/-- A merge joins contents. -/
theorem contents_merged : merged.contents = g.contents.join other.contents := by
  funext place
  cases place with
  | plain address => exact hm.contents_merged_plain hnames hplain address
  | behind address kind number below =>
      exact hm.contents_merged_behind hnames hplain hcounts address kind number below

end CountedMerging

end Graph
end DeclGraph

import Mathlib.Data.List.Induction
import DeclGraph.Proofs.Copies

/-!
# Addresses

The address of a declaration is made of the keys on the way from the root down to it.
An address is plain if it leads through no anonymous class or object; what is
behind an anonymous one is sealed.  Where graphs are merged, containers meet at
plain addresses only: the number of an anonymous class is shifted beyond all numbers
that were issued where it comes in, and so it meets nothing, and neither does what
is in it.

Main results:

- Theorem `Graph.Coherent.locate_eq_some_iff`: an address leads to the container
  whose address it is.
- Theorem `Graph.address_of_site`: containers meet at plain addresses.
- Theorem `Graph.Merging.address_image`: where a plain address leads to in the
  incoming graph and after the merge.
- Theorem `Graph.CountedMerging.countAt_merged`: counts of issued names add up,
  address by address.
-/

namespace DeclGraph

/-! ## Anonymous keys -/

/-- Is this the key of an anonymous class or object? -/
def Key.isAnonymous (key : Key) : Bool :=
  key.1 ≠ .package && key.2.anonymousIndex?.isSome

theorem Key.isAnonymous_iff {key : Key} :
    key.isAnonymous = true ↔ key.1 ≠ .package ∧ ∃ k, key.2.anonymousIndex? = some k := by
  simp [isAnonymous, Option.isSome_iff_exists]

/-- A key that is not anonymous is not changed by a merge. -/
theorem Name.merged_of_not_anonymous {key : Key} (h : key.isAnonymous = false) (issued : UInt32) :
    merged issued key.1 key.2 = key.2 := by
  rw [Key.isAnonymous, Bool.and_eq_false_iff] at h
  rcases h with hpackage | hname
  · rw [decide_eq_false_iff_not, not_ne_iff] at hpackage
    rw [hpackage, merged_package]
  · rw [Option.isSome_eq_false_iff, Option.isNone_iff_eq_none] at hname
    exact merged_of_anonymousIndex?_eq_none hname issued key.1

/-- An anonymous key stays anonymous in a merge. -/
theorem Key.isAnonymous_merged {key : Key} (h : key.isAnonymous = true) (issued : UInt32) :
    Key.isAnonymous (key.1, Name.merged issued key.1 key.2) = true := by
  rcases Key.isAnonymous_iff.mp h with ⟨hkind, k, hindex⟩
  refine Key.isAnonymous_iff.mpr ⟨hkind, ?_⟩
  by_cases hissued : issued = 0
  · exact ⟨k, by rw [hissued, Name.merged_zero, hindex]⟩
  · exact ⟨_, by rw [Name.merged_anonymous hissued hkind hindex, Name.anonymousIndex?_anonymous]⟩

/-- Does an address lead through no anonymous class or object? -/
def PlainAddress (address : List Key) : Prop :=
  ∀ key ∈ address, key.isAnonymous = false

theorem plainAddress_append {above below : List Key} :
    PlainAddress (above ++ below) ↔ PlainAddress above ∧ PlainAddress below :=
  List.forall_mem_append

theorem plainAddress_singleton {key : Key} : PlainAddress [key] ↔ key.isAnonymous = false :=
  List.forall_mem_singleton

namespace Graph

/-! ## Where addresses lead -/

/-- The container at an address. -/
def locate (g : Graph) (address : List Key) : Option DeclId :=
  address.foldlM g.lookup root

/-- The keys on the way from the root down to a declaration. A declaration that is no container has
the address of its container. -/
def address (g : Graph) (id : DeclId) : List Key :=
  (g.lineage id).filterMap g.key?

/-- Is the declaration an anonymous class or object, or inside of one? -/
def Sealed (g : Graph) (id : DeclId) : Prop :=
  ¬ PlainAddress (g.address id)

/-- How many names were issued at an address. -/
def countAt (g : Graph) (address : List Key) : Nat :=
  (g.locate address).elim 0 fun id => (g.issued id).toNat

@[simp]
theorem locate_nil (g : Graph) : g.locate [] = some root :=
  rfl

/-- A longer address leads one step further down. -/
theorem locate_append_singleton (g : Graph) (address : List Key) (key : Key) :
    g.locate (address ++ [key]) = (g.locate address).bind (g.lookup · key) := by
  simp [locate, List.foldlM_append]

@[simp]
theorem address_root (g : Graph) : g.address root = [] := by
  simp [address]

theorem not_sealed_root (g : Graph) : ¬ g.Sealed root := by
  simp [Sealed, PlainAddress]

theorem countAt_of_locate {g : Graph} {address : List Key} {id : DeclId}
    (h : g.locate address = some id) : g.countAt address = (g.issued id).toNat := by
  simp [countAt, h]

theorem countAt_of_locate_eq_none {g : Graph} {address : List Key}
    (h : g.locate address = none) : g.countAt address = 0 := by
  simp [countAt, h]

theorem countAt_le_of_forall {g : Graph} {n : Nat}
    (h : ∀ decl ∈ g.decls.toList, decl.issued.toNat ≤ n) (address : List Key) :
    g.countAt address ≤ n := by
  cases hlocated : g.locate address with
  | none => simp [countAt_of_locate_eq_none hlocated]
  | some id =>
      rw [countAt_of_locate hlocated]
      exact issued_le_of_forall h id

namespace Coherent

variable {g : Graph} (hg : Coherent g)

include hg

/-- The address of a declaration is that of its owner and its own key. -/
theorem address_of_owner? {container id : DeclId} (howner : g.owner? id = some container) :
    g.address id = g.address container ++ (g.key? id).toList := by
  rw [address, hg.lineage_of_owner? howner, List.filterMap_append, ← address]
  cases hkey : g.key? id <;> simp [hkey]

/-- An address leads to the container whose address it is. -/
theorem locate_eq_some_iff {address : List Key} {id : DeclId} :
    g.locate address = some id ↔ (g.key? id).isSome ∧ g.address id = address := by
  constructor
  · intro h
    induction address using List.reverseRecOn generalizing id with
    | nil =>
        obtain rfl := Option.some.inj h
        rw [hg.key?_root, address_root]
        exact ⟨rfl, rfl⟩
    | append_singleton above key ih =>
        rw [locate_append_singleton] at h
        rcases Option.bind_eq_some_iff.mp h with ⟨container, hcontainer, hlookup⟩
        rcases hg.lookup_eq_some.mp hlookup with ⟨howner, hkey⟩
        rw [hg.address_of_owner? howner, (ih hcontainer).2, hkey]
        exact ⟨rfl, rfl⟩
  · rintro ⟨hid, rfl⟩
    induction hindex : id.index using Nat.strongRecOn generalizing id with
    | ind index ih =>
        rcases hg.eq_root_or_owned hid with rfl | ⟨container, howner⟩
        · rw [address_root, locate_nil]
        · have hlt := hg.owner_lt howner
          rcases Option.isSome_iff_exists.mp hid with ⟨key, hkey⟩
          rw [hg.address_of_owner? howner, hkey, Option.toList_some, locate_append_singleton,
            ih container.index (by omega) (hg.isSome_key?_of_owner? howner) rfl, Option.bind_some,
            hg.lookup_eq_some.mpr ⟨howner, hkey⟩]

/-- A container is where its address leads. -/
theorem locate_address {id : DeclId} (hid : (g.key? id).isSome) :
    g.locate (g.address id) = some id :=
  hg.locate_eq_some_iff.mpr ⟨hid, rfl⟩

/-- The path of a container is made of the names in its address. -/
theorem path_eq_address {id : DeclId} (hid : (g.key? id).isSome) :
    g.path id = ⟨(g.address id).map Prod.snd⟩ := by
  induction hindex : id.index using Nat.strongRecOn generalizing id with
  | ind index ih =>
      rcases hg.eq_root_or_owned hid with rfl | ⟨container, howner⟩
      · rw [path_root, address_root]
        rfl
      · have hlt := hg.owner_lt howner
        rcases Option.isSome_iff_exists.mp hid with ⟨key, hkey⟩
        rw [path_of_owner? hg howner hkey, hg.address_of_owner? howner, hkey,
          ih container.index (by omega) (hg.isSome_key?_of_owner? howner) rfl]
        simp [Path.child]

/-! ### Sealed declarations -/

/-- What is sealed is an anonymous class or object, or its owner is sealed. -/
theorem sealed_iff {container id : DeclId} (howner : g.owner? id = some container) :
    g.Sealed id ↔ g.Sealed container ∨ ∃ key, g.key? id = some key ∧ key.isAnonymous = true := by
  rw [Sealed, hg.address_of_owner? howner, plainAddress_append, not_and_or, ← Sealed]
  cases hkey : g.key? id with
  | none => simp [PlainAddress]
  | some key => simp [plainAddress_singleton]

/-- What is sealed has an owner. -/
theorem exists_owner_of_sealed {id : DeclId} (h : g.Sealed id) :
    ∃ container, g.owner? id = some container := by
  cases howner : g.owner? id with
  | some container => exact ⟨container, rfl⟩
  | none =>
      by_cases hroot : id = root
      · exact absurd h (hroot ▸ g.not_sealed_root)
      · have hkey : g.key? id = none := by
          by_contra hkey
          rcases hg.eq_root_or_owned (Option.isSome_iff_ne_none.mpr hkey) with
            hisRoot | ⟨container, hcontainer⟩
          · exact hroot hisRoot
          · rw [howner] at hcontainer
            contradiction
        refine absurd ?_ h
        simp [address, lineage_of_unowned hroot howner, hkey, PlainAddress]

/-- What is sealed is in a slot of the graph. -/
theorem index_lt_of_sealed {id : DeclId} (h : g.Sealed id) : id.index < g.size := by
  rcases hg.exists_owner_of_sealed h with ⟨container, howner⟩
  exact hg.index_lt_of_owner? howner

end Coherent

/-! ## Where containers meet -/

section Sites

variable {g other : Graph} (hg : Coherent g) (hother : Coherent other) (hnames : NamesIssued g)
  (hotherNames : NamesIssued other)

include hg hother hnames hotherNames

/-- An anonymous class or object meets nothing, as its number is shifted beyond all that were
issued where it comes in. -/
theorem site_of_anonymous {c d : DeclId} {key : Key} (howner : other.owner? d = some c)
    (hkey : other.key? d = some key) (hanonymous : key.isAnonymous = true)
    (hfit : ∀ e, g.site other c = some e →
      (g.issued e).toNat + (other.issued c).toNat < UInt32.size) : g.site other d = none := by
  cases hsite : g.site other d with
  | none => rfl
  | some e =>
      rcases Key.isAnonymous_iff.mp hanonymous with ⟨hkind, k, hindex⟩
      rcases hotherNames howner hkey hkind hindex with ⟨hname, hle, hne⟩
      rcases site_cases hg hother hsite with
        ⟨rfl, -⟩ | ⟨c', above, mergedKey, howner', habove, hmerged, heOwner, heKey⟩
      · rw [hother.owner?_root] at howner
        contradiction
      · obtain rfl := Option.some.inj (howner.symm.trans howner')
        rw [mergedKey?_of_owner? howner hkey, hname, Name.merged_issued_name hkind] at hmerged
        obtain rfl := Option.some.inj hmerged
        have hheld := (hnames heOwner heKey hkind (Name.anonymousIndex?_anonymous _)).2.1
        have hbound := hfit above habove
        simp only [offset, habove, Option.elim_some, Name.toNat_shiftIndex] at hheld
        rw [← UInt32.toNat_inj.ne, UInt32.toNat_zero] at hne
        omega

variable (hcounts : ∀ address, PlainAddress address →
  g.countAt address + other.countAt address < UInt32.size)

include hcounts

/-- Containers meet at plain addresses. -/
theorem address_of_site {d e : DeclId} (hsite : g.site other d = some e) :
    PlainAddress (other.address d) ∧ g.address e = other.address d := by
  induction hindex : d.index using Nat.strongRecOn generalizing d e with
  | ind index ih =>
      rcases site_cases hg hother hsite with
        ⟨rfl, rfl⟩ | ⟨c, above, mergedKey, howner, habove, hmerged, heOwner, heKey⟩
      · simp [PlainAddress]
      · have hlt := hother.owner_lt howner
        rcases ih c.index (by omega) habove rfl with ⟨hplain, haddress⟩
        rcases Option.map_eq_some_iff.mp hmerged with ⟨key, hkey, -⟩
        -- The counts fit where the two owners meet, which is at a plain address.
        have hfit : ∀ e, g.site other c = some e →
            (g.issued e).toNat + (other.issued c).toNat < UInt32.size := by
          intro e he
          obtain rfl := Option.some.inj (habove.symm.trans he)
          rw [← countAt_of_locate (hg.locate_eq_some_iff.mpr
              ⟨isSome_key?_of_site hg hother habove, haddress⟩),
            ← countAt_of_locate (hother.locate_address (hother.isSome_key?_of_owner? howner))]
          exact hcounts _ hplain
        have hown : key.isAnonymous = false := by
          rw [← Bool.not_eq_true]
          intro hanonymous
          rw [site_of_anonymous hg hother hnames hotherNames howner hkey hanonymous hfit] at hsite
          contradiction
        rw [mergedKey?_of_owner? howner hkey, Name.merged_of_not_anonymous hown] at hmerged
        obtain rfl := Option.some.inj hmerged
        rw [hother.address_of_owner? howner, hkey, hg.address_of_owner? heOwner, heKey, haddress,
          Option.toList_some, plainAddress_append, plainAddress_singleton]
        exact ⟨⟨hplain, hown⟩, rfl⟩

/-- Counts of issued names fit wherever containers meet if they fit at plain addresses. -/
theorem countsFit_of_countAt : CountsFit g other := by
  intro d e hsite
  rcases address_of_site hg hother hnames hotherNames hcounts hsite with ⟨hplain, haddress⟩
  have hd : (other.key? d).isSome := by
    rcases site_cases hg hother hsite with ⟨rfl, -⟩ | ⟨c, above, key, -, -, hmerged, -, -⟩
    · exact hother.isSome_key?_root
    · rcases Option.map_eq_some_iff.mp hmerged with ⟨key, hkey, -⟩
      rw [hkey, Option.isSome_some]
  rw [← countAt_of_locate (hg.locate_eq_some_iff.mpr
      ⟨isSome_key?_of_site hg hother hsite, haddress⟩),
    ← countAt_of_locate (hother.locate_address hd)]
  exact hcounts _ hplain

end Sites

/-! ## Addresses after a merge -/

/-- What was there keeps its address. -/
theorem Log.address_old {g other h : Graph} {plan : Renamings} {log : List Arrival}
    (hg : Coherent g) (hlog : Log g other plan log h) {id : DeclId} (hid : id.index < g.size) :
    h.address id = g.address id := by
  induction hindex : id.index using Nat.strongRecOn generalizing id with
  | ind index ih =>
      have howned := hlog.owner?_old hg hid
      have hkey := (hlog.key?_old hg hid).1
      cases howner : g.owner? id with
      | some container =>
          have hlt := hg.owner_lt howner
          rw [howner] at howned
          rw [(hlog.coherent hg).address_of_owner? howned, hg.address_of_owner? howner, hkey,
            ih container.index (by omega) (by omega) rfl]
      | none =>
          rw [howner] at howned
          by_cases hroot : id = root
          · rw [hroot, address_root, address_root]
          · simp only [address, lineage_of_unowned hroot howner, lineage_of_unowned hroot howned,
              List.filterMap_cons, List.filterMap_nil, hkey]

namespace Merging

variable {g other merged : Graph} {forest : Forest} {log : List Arrival}
  (hm : Merging g other merged forest log)

include hm

/-- An address that led somewhere leads there still. -/
theorem locate_old {address : List Key} {e : DeclId} (h : g.locate address = some e) :
    merged.locate address = some e := by
  rcases hm.coherent.locate_eq_some_iff.mp h with ⟨he, haddress⟩
  rcases Option.isSome_iff_exists.mp he with ⟨key, hkey⟩
  have hlt := index_lt_of_key? hkey
  refine hm.merged_coherent.locate_eq_some_iff.mpr ⟨?_, ?_⟩
  · rwa [(hm.logged.key?_old hm.coherent hlt).1]
  · rwa [hm.logged.address_old hm.coherent hlt]

/-- What an address leads to after the merge, it led to before, if it was there. -/
theorem locate_of_lt {address : List Key} {e : DeclId} (h : merged.locate address = some e)
    (hlt : e.index < g.size) : g.locate address = some e := by
  rcases hm.merged_coherent.locate_eq_some_iff.mp h with ⟨he, rfl⟩
  rw [(hm.logged.key?_old hm.coherent hlt).1] at he
  rw [hm.logged.address_old hm.coherent hlt]
  exact hm.coherent.locate_address he

/-- A container at a plain address keeps it, and no other container comes to a plain address. -/
theorem address_image {d : DeclId} (hd : (other.key? d).isSome) :
    (PlainAddress (other.address d) → merged.address (imageIn log d) = other.address d) ∧
      (PlainAddress (merged.address (imageIn log d)) → PlainAddress (other.address d)) := by
  induction hindex : d.index using Nat.strongRecOn generalizing d with
  | ind index ih =>
      rcases hm.other_coherent.eq_root_or_owned hd with rfl | ⟨c, howner⟩
      · rw [hm.image_root, address_root, address_root]
        exact ⟨fun _ => rfl, id⟩
      · have hlt := hm.other_coherent.owner_lt howner
        rcases Option.isSome_iff_exists.mp hd with ⟨key, hkey⟩
        rcases hm.key?_image howner hkey with ⟨himage, hinto⟩
        rcases ih c.index (by omega) (hm.other_coherent.isSome_key?_of_owner? howner) rfl with
          ⟨hkept, hplain⟩
        rw [hm.other_coherent.address_of_owner? howner, hkey,
          hm.merged_coherent.address_of_owner? hinto, himage, Option.toList_some,
          Option.toList_some, plainAddress_append, plainAddress_append, plainAddress_singleton,
          plainAddress_singleton]
        constructor
        · rintro ⟨habove, hown⟩
          rw [hkept habove, Name.merged_of_not_anonymous hown]
        · rintro ⟨habove, hown⟩
          refine ⟨hplain habove, ?_⟩
          rw [← Bool.not_eq_true] at hown ⊢
          exact fun hanonymous => hown (Key.isAnonymous_merged hanonymous _)

/-- A plain address leads from the incoming graph to the image of what it leads to there. -/
theorem locate_image {address : List Key} (hplain : PlainAddress address) {d : DeclId}
    (h : other.locate address = some d) : merged.locate address = some (imageIn log d) := by
  rcases hm.other_coherent.locate_eq_some_iff.mp h with ⟨hd, rfl⟩
  refine hm.merged_coherent.locate_eq_some_iff.mpr ⟨?_, (hm.address_image hd).1 hplain⟩
  rcases hm.exists_arrival_container hd with ⟨a, ha, rfl, -, htarget⟩
  rwa [(hm.logged.isSome_key?_target hm.coherent hm.other_coherent ha htarget).2]

/-- What a plain address leads to after the merge was there, or is an image. -/
theorem locate_merged {address : List Key} (hplain : PlainAddress address) {e : DeclId}
    (h : merged.locate address = some e) :
    g.locate address = some e ∨ ∃ d, other.locate address = some d ∧ imageIn log d = e := by
  by_cases hold : e.index < g.size
  · exact Or.inl (hm.locate_of_lt h hold)
  · right
    rcases hm.merged_coherent.locate_eq_some_iff.mp h with ⟨he, rfl⟩
    rcases Option.isSome_iff_exists.mp he with ⟨key, hkey⟩
    rcases hm.logged.exists_fresh hm.coherent (Nat.le_of_not_lt hold) (index_lt_of_key? hkey) with
      ⟨a, ha, -, htarget⟩
    have hd : (other.key? a.source).isSome := by
      rw [← (hm.logged.isSome_key?_target hm.coherent hm.other_coherent ha htarget).2, he]
    obtain rfl := hm.image_eq ha htarget
    rcases hm.address_image hd with ⟨hkept, hplainBefore⟩
    exact ⟨a.source, hm.other_coherent.locate_eq_some_iff.mpr
      ⟨hd, (hkept (hplainBefore hplain)).symm⟩, rfl⟩

/-- A plain address that leads nowhere in the incoming graph leads where it led before. -/
theorem locate_of_stayed {address : List Key} (hplain : PlainAddress address)
    (hd : other.locate address = none) : merged.locate address = g.locate address := by
  ext e
  constructor
  · intro he
    obtain hold | ⟨d, hnew, -⟩ := hm.locate_merged hplain he
    · exact hold
    · rw [hd] at hnew
      contradiction
  · exact hm.locate_old

/-- Nothing comes into a container at such an address. -/
theorem image_ne_of_stayed {address : List Key} (hplain : PlainAddress address)
    (hd : other.locate address = none) {e : DeclId} (he : g.locate address = some e) {d : DeclId}
    (hdKey : (other.key? d).isSome) : imageIn log d ≠ e := by
  rintro rfl
  obtain ⟨hkept, hplainBefore⟩ := hm.address_image hdKey
  rw [(hm.merged_coherent.locate_eq_some_iff.mp (hm.locate_old he)).2] at hkept hplainBefore
  rw [hm.other_coherent.locate_eq_some_iff.mpr
    ⟨hdKey, (hkept (hplainBefore hplain)).symm⟩] at hd
  contradiction

/-- What had been issued at a plain address was issued by what comes there. -/
theorem countAt_eq_issued_image {address : List Key} (hplain : PlainAddress address) {d : DeclId}
    (hd : other.locate address = some d) :
    g.countAt address = (g.issued (imageIn log d)).toNat := by
  have himage := hm.locate_image hplain hd
  cases he : g.locate address with
  | some e =>
      obtain rfl := Option.some.inj ((hm.locate_old he).symm.trans himage)
      exact countAt_of_locate he
  | none =>
      have hnew : g.size ≤ (imageIn log d).index := by
        refine Nat.le_of_not_lt fun hlt => ?_
        rw [hm.locate_of_lt himage hlt] at he
        contradiction
      rw [countAt_of_locate_eq_none he, issued_of_size_le hnew, UInt32.toNat_zero]

/-- What was there keeps its path. -/
theorem path_old {id : DeclId} (hid : (g.key? id).isSome) : merged.path id = g.path id := by
  rcases Option.isSome_iff_exists.mp hid with ⟨key, hkey⟩
  have hlt := index_lt_of_key? hkey
  have hnow : (merged.key? id).isSome := by rwa [(hm.logged.key?_old hm.coherent hlt).1]
  rw [hm.merged_coherent.path_eq_address hnow, hm.coherent.path_eq_address hid,
    hm.logged.address_old hm.coherent hlt]

end Merging

namespace CountedMerging

variable {g other merged : Graph} {forest : Forest} {log : List Arrival}
  (hm : CountedMerging g other merged forest log) {address : List Key}
  (hplain : PlainAddress address)

include hm hplain

/-- What is at a plain address that leads nowhere in the incoming graph stays what it was. -/
theorem untouched_of_stayed (hd : other.locate address = none) {e : DeclId}
    (he : g.locate address = some e) :
    merged.header? e = g.header? e ∧ merged.memberIds e = g.memberIds e := by
  obtain ⟨key, hkey⟩ := Option.isSome_iff_exists.mp (hm.coherent.locate_eq_some_iff.mp he).1
  exact hm.union.untouched (index_lt_of_key? hkey) fun d hdKey =>
    hm.image_ne_of_stayed hplain hd he hdKey

/-- Where something came in, the counts of issued names are added. -/
private theorem countAt_of_came {d : DeclId} (hd : other.locate address = some d) :
    merged.countAt address = g.countAt address + other.countAt address := by
  rw [countAt_of_locate (hm.locate_image hplain hd), hm.countAt_eq_issued_image hplain hd,
    countAt_of_locate hd, hm.issued_image (hm.other_coherent.locate_eq_some_iff.mp hd).1]

/-- Where nothing came in, the count of issued names is what it was. -/
private theorem countAt_of_stayed (hd : other.locate address = none) :
    merged.countAt address = g.countAt address := by
  have hlocated := hm.locate_of_stayed hplain hd
  cases he : g.locate address with
  | some e =>
      have hheader := (hm.untouched_of_stayed hplain hd he).1
      rw [countAt_of_locate (hlocated.trans he), countAt_of_locate he, issued_eq_header?, hheader,
        ← issued_eq_header?]
  | none => rw [countAt_of_locate_eq_none (hlocated.trans he), countAt_of_locate_eq_none he]

/-- Counts of issued names add up, address by address. -/
theorem countAt_merged :
    merged.countAt address = g.countAt address + other.countAt address := by
  cases hd : other.locate address with
  | some d => exact hm.countAt_of_came hplain hd
  | none => rw [hm.countAt_of_stayed hplain hd, countAt_of_locate_eq_none hd, Nat.add_zero]

end CountedMerging

end Graph
end DeclGraph

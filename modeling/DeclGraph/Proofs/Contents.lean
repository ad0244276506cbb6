import DeclGraph.Proofs.Copies
import DeclGraph.Proofs.Renumbering

/-!
# Contents

What a graph holds is told address by address: how many names were issued there, what
the class there declares of itself, and how its members look.  Where graphs are
merged, their contents are joined.  At a plain address counts add up, parents are
gained, and members are appended unless they meet a member that is there.  What is
behind an anonymous class or object belongs to one of the two graphs alone, and its
number tells to which.

Joining is associative, whatever is joined; nothing is said of merges here.

Main results:

- Theorem `ClassDecl.gainParents_gainParents`: gaining parents is associative.
- Theorem `Content.join_assoc`: joining what is at one address is associative.
- Theorem `Contents.join_assoc`: joining contents is associative.
- Theorem `Graph.renumbering_of_contents_eq`: graphs with the same contents are
  renumberings of each other.
-/

namespace DeclGraph

/-! ## Gaining parents -/

namespace ClassDecl

/-- The last parent that a class gains is appended unless the class has it by then. -/
theorem gainParents_concat (k : ClassDecl) (incoming : List TypeExpr) (parent : TypeExpr) :
    k.gainParents (incoming ++ [parent]) =
      { k with parents :=
          if parent ∈ (k.gainParents incoming).parents then (k.gainParents incoming).parents
          else (k.gainParents incoming).parents ++ [parent] } := by
  unfold gainParents
  rw [List.foldl_append]
  rfl

theorem mem_parents_gainParents {k : ClassDecl} {incoming : List TypeExpr} {parent : TypeExpr} :
    parent ∈ (k.gainParents incoming).parents ↔ parent ∈ k.parents ∨ parent ∈ incoming := by
  by_cases hknown : parent ∈ k.parents <;>
    simp [gainParents_eq, List.mem_eraseDups, hknown]

/-- To gain what another class has after it gained some is to gain its parents and then these. -/
theorem gainParents_gainParents (k other : ClassDecl) (incoming : List TypeExpr) :
    k.gainParents (other.gainParents incoming).parents =
      (k.gainParents other.parents).gainParents incoming := by
  -- By induction from the end, where the last parent is known on both sides or on neither.
  induction incoming using List.reverseRecOn with
  | nil => rfl
  | append_singleton above parent ih =>
      have hknown : parent ∈ ((k.gainParents other.parents).gainParents above).parents ↔
          parent ∈ k.parents ∨ parent ∈ (other.gainParents above).parents := by
        rw [← ih, mem_parents_gainParents]
      by_cases hother : parent ∈ (other.gainParents above).parents
      · rw [gainParents_concat, gainParents_concat, if_pos (hknown.mpr (Or.inr hother))]
        simp only [if_pos hother, ih]
        rfl
      · rw [gainParents_concat, if_neg hother]
        simp only [gainParents_concat, ih]
        rfl

/-- To mention parents once is to gain them without having any. -/
theorem distinctParents_eq (k : ClassDecl) :
    k.distinctParents = ({ k with parents := [] } : ClassDecl).gainParents k.parents := by
  simp [gainParents_eq, distinctParents]

theorem distinctParents_distinctParents (k : ClassDecl) :
    k.distinctParents.distinctParents = k.distinctParents := by
  have hagain := gainParents_gainParents { k with parents := [] } { k with parents := [] } k.parents
  rw [← distinctParents_eq] at hagain
  rw [distinctParents_eq k.distinctParents]
  exact hagain.trans (distinctParents_eq k).symm

theorem gainParents_distinctParents (k other : ClassDecl) :
    k.gainParents other.distinctParents.parents = k.gainParents other.parents := by
  rw [distinctParents_eq other, gainParents_gainParents]
  rfl

theorem distinctParents_gainParents (k : ClassDecl) (incoming : List TypeExpr) :
    (k.gainParents incoming).distinctParents = k.distinctParents.gainParents incoming := by
  rw [distinctParents_eq, distinctParents_eq k, ← gainParents_gainParents]
  rfl

end ClassDecl

/-! ## Entries -/

/-- A member of a container as merging sees it. Of an anonymous class or object it sees the number,
which is counted without regard to 32 bits. -/
inductive Entry
  /-- A declaration that is no container. -/
  | leaf (decl : Decl)
  /-- A container with a name of its own. -/
  | named (key : Key)
  /-- An anonymous class or object. -/
  | anonymous (kind : Kind) (number : Nat)
deriving DecidableEq

/-- What makes two entries meet. -/
inductive Mark
  /-- The signature of a method. -/
  | signature (signature : Signature)
  /-- The key of a container. -/
  | key (key : Key)
  /-- The kind and number of an anonymous class or object. -/
  | number (kind : Kind) (number : Nat)
deriving DecidableEq

/-- A mark in a container that had issued `n` names before. -/
def Mark.shift (n : Nat) : Mark → Mark
  | .number kind k => .number kind (k + n)
  | mark => mark

theorem Mark.shift_injective (n : Nat) : Function.Injective (Mark.shift n) := by
  intro a b h
  cases a <;> cases b <;> simp_all [Mark.shift]

namespace Entry

/-- The entry of a container with this key. -/
def ofKey (key : Key) : Entry :=
  if key.1 = .package then .named key
  else
    match key.2.anonymousIndex? with
    | none => .named key
    | some k => .anonymous key.1 k.toNat

/-- The entry of a slot that shows this. -/
def of : Option (Key ⊕ Decl) → Entry
  | none => .leaf (.comment "")
  | some (.inl key) => ofKey key
  | some (.inr decl) => .leaf decl

/-- What a slot with this entry shows, if its name was issued. -/
def stub : Entry → Option (Key ⊕ Decl)
  | .leaf decl => some (.inr decl)
  | .named key => some (.inl key)
  | .anonymous kind number => some (.inl (kind, Name.anonymous (UInt32.ofNat number)))

/-- The entry of a container tells its key, if a number in it is spelled as it was issued. -/
theorem stub_ofKey {key : Key} (hissued : ∀ k, key.1 ≠ .package →
    key.2.anonymousIndex? = some k → key.2 = Name.anonymous k) :
    (ofKey key).stub = some (.inl key) := by
  unfold ofKey
  by_cases hpackage : key.1 = .package
  · rw [if_pos hpackage, stub]
  · rw [if_neg hpackage]
    cases hindex : key.2.anonymousIndex? with
    | none => rfl
    | some k => simp only [stub, UInt32.ofNat_toNat, ← hissued k hpackage hindex]

/-- The mark of an entry. Fields and comments have none. -/
def mark? : Entry → Option Mark
  | .leaf (.method m) => some (.signature m.signature)
  | .leaf _ => none
  | .named key => some (.key key)
  | .anonymous kind number => some (.number kind number)

/-- An entry in a container that had issued `n` names before. -/
def shift (n : Nat) : Entry → Entry
  | .anonymous kind number => .anonymous kind (number + n)
  | entry => entry

/-- Does an entry meet none of these? -/
def unmet (entries : List Entry) (entry : Entry) : Bool :=
  entry.mark?.all fun mark => decide (mark ∉ entries.filterMap mark?)

@[simp]
theorem shift_zero (entry : Entry) : entry.shift 0 = entry := by
  cases entry <;> rfl

theorem shift_shift (m n : Nat) (entry : Entry) :
    (entry.shift n).shift m = entry.shift (m + n) := by
  cases entry with
  | anonymous kind number =>
      rw [shift, shift, shift, Nat.add_assoc, Nat.add_comm n m]
  | _ => rfl

theorem mark?_shift (n : Nat) (entry : Entry) :
    (entry.shift n).mark? = entry.mark?.map (Mark.shift n) := by
  cases entry with
  | leaf decl => cases decl <;> rfl
  | _ => rfl

theorem unmet_iff {entries : List Entry} {entry : Entry} :
    unmet entries entry = true ↔ ∀ mark, entry.mark? = some mark →
      ∀ other ∈ entries, other.mark? ≠ some mark := by
  unfold unmet
  cases entry.mark? <;> simp

theorem unmet_append (entries more : List Entry) (entry : Entry) :
    unmet (entries ++ more) entry = (unmet entries entry && unmet more entry) := by
  rw [Bool.eq_iff_iff, Bool.and_eq_true, unmet_iff, unmet_iff, unmet_iff]
  constructor
  · intro h
    exact ⟨fun mark hmark other hother => h mark hmark other (List.mem_append_left _ hother),
      fun mark hmark other hother => h mark hmark other (List.mem_append_right _ hother)⟩
  · rintro ⟨hentries, hmore⟩ mark hmark other hother
    obtain hin | hin := List.mem_append.mp hother
    · exact hentries mark hmark other hin
    · exact hmore mark hmark other hin

/-- Shifting numbers alike changes nothing about what meets what. -/
theorem unmet_shift (n : Nat) (entries : List Entry) (entry : Entry) :
    unmet (entries.map (shift n)) (entry.shift n) = unmet entries entry := by
  have hmarks : (entries.map (shift n)).filterMap mark? =
      (entries.filterMap mark?).map (Mark.shift n) := by
    rw [List.filterMap_map, List.map_filterMap]
    congr 1
    funext other
    exact mark?_shift n other
  unfold unmet
  rw [mark?_shift, hmarks]
  cases entry.mark? with
  | none => rfl
  | some mark =>
      simp only [Option.map_some, Option.all_some,
        List.mem_map_of_injective (Mark.shift_injective n)]

/-- What meets something that was left out meets what that was left out for. -/
theorem unmet_filter (entries more : List Entry) :
    unmet (entries ++ more.filter (unmet entries)) = unmet (entries ++ more) := by
  funext entry
  rw [unmet_append, unmet_append, Bool.eq_iff_iff, Bool.and_eq_true, Bool.and_eq_true]
  apply and_congr_right
  intro hnew
  rw [unmet_iff, unmet_iff]
  constructor
  · intro h mark hmark other hother hsame
    have hkept : unmet entries other = true := by
      rw [unmet_iff, hsame, ← hmark, ← unmet_iff]
      exact hnew
    exact h mark hmark other (List.mem_filter.mpr ⟨hother, hkept⟩) hsame
  · intro h mark hmark other hother
    exact h mark hmark other (List.mem_of_mem_filter hother)

/-- The entries of a container that had issued `n` names after others came into it. -/
def join (n : Nat) (entries incoming : List Entry) : List Entry :=
  entries ++ (incoming.map (shift n)).filter (unmet entries)

theorem join_nil (n : Nat) (entries : List Entry) : join n entries [] = entries := by
  rw [join, List.map_nil, List.filter_nil, List.append_nil]

/-- Whether entries come in together or one after the other, the same ones are there at last. -/
theorem join_assoc (m n : Nat) (first second third : List Entry) :
    join (m + n) (join m first second) third = join m first (join n second third) := by
  have hthird : (third.map (shift n)).map (shift m) = third.map (shift (m + n)) := by
    rw [List.map_map]
    exact List.map_congr_left fun entry _ => shift_shift m n entry
  have hsecond : ((third.map (shift n)).filter (unmet second)).map (shift m) =
      (third.map (shift (m + n))).filter (unmet (second.map (shift m))) := by
    have hsame : unmet (second.map (shift m)) ∘ shift m = unmet second :=
      funext (unmet_shift m second)
    rw [← hthird, List.filter_map (l := (third.map (shift n))), hsame]
  have hfilter : unmet (first ++ second.map (shift m)) = fun entry =>
      unmet first entry && unmet (second.map (shift m)) entry :=
    funext (unmet_append first _)
  unfold join
  rw [unmet_filter, List.map_append, List.filter_append, hsecond, List.filter_filter, hfilter,
    List.append_assoc]

end Entry

/-! ## What is at one address -/

/-- The class that is there after another one came in. -/
def joinClass : Option ClassDecl → Option ClassDecl → Option ClassDecl
  | none, incoming => incoming.map ClassDecl.distinctParents
  | some k, none => some k
  | some k, some incoming => some (k.gainParents incoming.parents)

theorem joinClass_none (k : Option ClassDecl) : joinClass k none = k := by
  cases k <;> rfl

theorem joinClass_assoc (a b c : Option ClassDecl) :
    joinClass (joinClass a b) c = joinClass a (joinClass b c) := by
  cases a <;> cases b <;> cases c <;>
    simp [joinClass, ClassDecl.distinctParents_distinctParents,
      ClassDecl.gainParents_distinctParents, ClassDecl.distinctParents_gainParents,
      ClassDecl.gainParents_gainParents]

/-- What a container holds, apart from its key. Where there is no container, there is nothing. -/
@[ext]
structure Content where
  /-- How many names it has issued. -/
  issued : Nat := 0
  /-- What it declares of itself, if it is a class. -/
  klass : Option ClassDecl := none
  /-- Its members. -/
  entries : List Entry := []

namespace Content

/-- What is there after something came in. -/
def join (c d : Content) : Content where
  issued := c.issued + d.issued
  klass := joinClass c.klass d.klass
  entries := Entry.join c.issued c.entries d.entries

/-- Joining what is at one address is associative. -/
theorem join_assoc (a b c : Content) : (a.join b).join c = a.join (b.join c) := by
  simp only [join, Content.mk.injEq]
  exact ⟨Nat.add_assoc _ _ _, joinClass_assoc _ _ _, Entry.join_assoc _ _ _ _ _⟩

/-- Where nothing comes in, nothing changes. -/
theorem join_nothing (c : Content) : c.join {} = c := by
  cases c
  simp [join, joinClass_none, Entry.join_nil]

end Content

/-! ## Places -/

/-- A place for a container: a plain address, or what is behind an anonymous class or object at a
plain address. -/
inductive Place
  /-- A plain address. -/
  | plain (address : {address : List Key // PlainAddress address})
  /-- In the container at a plain address the class or object with this number, and what is below
  it. -/
  | behind (address : {address : List Key // PlainAddress address})
      (kind : {kind : Kind // kind ≠ .package}) (number : Nat) (below : List Key)

/-- What is at every place. -/
abbrev Contents := Place → Content

namespace Contents

/-- What is at every place after something came in. What has a number that was issued before was
there, and what comes in has the numbers that follow. -/
def join (c d : Contents) : Contents
  | .plain address => (c (.plain address)).join (d (.plain address))
  | .behind address kind number below =>
      if number ≤ (c (.plain address)).issued then c (.behind address kind number below)
      else ({} : Content).join
        (d (.behind address kind (number - (c (.plain address)).issued) below))

section Behind

variable {c d : Contents} {address : {address : List Key // PlainAddress address}}
  {kind : {kind : Kind // kind ≠ .package}} {number : Nat} {below : List Key}

/-- What has a number that was issued before was there. -/
theorem join_behind_of_le (h : number ≤ (c (.plain address)).issued) :
    c.join d (.behind address kind number below) = c (.behind address kind number below) :=
  if_pos h

/-- What has a later number comes in. -/
theorem join_behind_of_lt (h : (c (.plain address)).issued < number) :
    c.join d (.behind address kind number below) = ({} : Content).join
      (d (.behind address kind (number - (c (.plain address)).issued) below)) :=
  if_neg (Nat.not_le_of_lt h)

end Behind

/-- Joining contents is associative. -/
theorem join_assoc (a b c : Contents) : (a.join b).join c = a.join (b.join c) := by
  funext place
  cases place with
  | plain address => exact Content.join_assoc _ _ _
  | behind address kind number below =>
      have hissued : (a.join b (.plain address)).issued =
          (a (.plain address)).issued + (b (.plain address)).issued := rfl
      by_cases hfirst : number ≤ (a (.plain address)).issued
      · rw [join_behind_of_le (by omega), join_behind_of_le hfirst, join_behind_of_le hfirst]
      · rw [Nat.not_le] at hfirst
        rw [join_behind_of_lt (c := a) (d := b.join c) hfirst]
        by_cases hsecond : number ≤ (a.join b (.plain address)).issued
        · rw [join_behind_of_le hsecond, join_behind_of_lt hfirst, join_behind_of_le (by omega)]
        · rw [Nat.not_le] at hsecond
          rw [join_behind_of_lt hsecond, join_behind_of_lt (by omega), ← Content.join_assoc,
            Content.join_nothing, hissued, Nat.sub_sub]

end Contents

/-! ## The contents of a graph -/

namespace Decl

/-- What a class declares of itself, apart from its name. -/
def body? : Decl → Option ClassDecl
  | klass k => some { k with name := Name.empty, scope := {}, companion := none }
  | _ => none

theorem body?_header (decl : Decl) : decl.header.body? = decl.body? := by
  cases decl <;> rfl

theorem body?_distinctParents (decl : Decl) :
    decl.distinctParents.body? = decl.body?.map ClassDecl.distinctParents := by
  cases decl <;> rfl

/-- A container is what its key, its count of issued names and its body tell. -/
theorem header_eq_of {a b : Decl} {key : Key} (ha : a.key? = some key) (hb : b.key? = some key)
    (hissued : a.issued = b.issued) (hbody : a.body? = b.body?) : a.header = b.header := by
  cases a <;> simp [key?] at ha <;> subst ha <;> cases b <;>
    simp_all [key?, issued, scope?, body?, header]

end Decl

/-- The address of a place. -/
def Place.address : Place → List Key
  | .plain address => address.1
  | .behind address kind number below =>
      address.1 ++ (kind.1, Name.anonymous (UInt32.ofNat number)) :: below

namespace Graph

/-- What a container holds. -/
def content (g : Graph) (id : DeclId) : Content where
  issued := (g.issued id).toNat
  klass := (g.header? id).bind Decl.body?
  entries := (g.roster id).map Entry.of

/-- Was the number of a place issued? -/
def Reaches (g : Graph) : Place → Prop
  | .plain _ => True
  | .behind address _ number _ => number ≤ g.countAt address.1

instance (g : Graph) (place : Place) : Decidable (g.Reaches place) :=
  match place with
  | .plain _ => inferInstanceAs (Decidable True)
  | .behind address _ number _ => inferInstanceAs (Decidable (number ≤ g.countAt address.1))

theorem reaches_behind_iff {g : Graph} {address : {address : List Key // PlainAddress address}}
    {kind : {kind : Kind // kind ≠ .package}} {number : Nat} {below : List Key} :
    g.Reaches (.behind address kind number below) ↔ number ≤ g.countAt address.1 :=
  Iff.rfl

/-- What is at every place of a graph. -/
def contents (g : Graph) : Contents := fun place =>
  if g.Reaches place then (g.locate place.address).elim {} g.content else {}

theorem contents_of_reaches {g : Graph} {place : Place} (h : g.Reaches place) :
    g.contents place = (g.locate place.address).elim {} g.content :=
  if_pos h

theorem contents_of_not_reaches {g : Graph} {place : Place} (h : ¬ g.Reaches place) :
    g.contents place = {} :=
  if_neg h

theorem contents_plain (g : Graph) (address : {address : List Key // PlainAddress address}) :
    g.contents (.plain address) = (g.locate address.1).elim {} g.content :=
  if_pos trivial

/-- The contents tell how many names were issued at a plain address. -/
theorem issued_contents_plain (g : Graph)
    (address : {address : List Key // PlainAddress address}) :
    (g.contents (.plain address)).issued = g.countAt address.1 := by
  rw [contents_plain, countAt]
  cases g.locate address.1 <;> rfl

/-! ### Graphs with the same contents -/

section Same

variable {g h : Graph} (hg : Coherent g) (hnames : NamesIssued g)

include hg hnames

/-- The entry of a member tells what it shows. -/
theorem stub_entry {container id : DeclId} (howner : g.owner? id = some container) :
    (Entry.of (g.stub? id)).stub = g.stub? id := by
  obtain ⟨decl, hdecl⟩ := exists_get? (hg.index_lt_of_owner? howner)
  cases hkey : decl.key? with
  | none => simp [stub?, hdecl, Decl.stub, hkey, Entry.of, Entry.stub]
  | some key =>
      have hidKey : g.key? id = some key := by rw [Graph.key?, hdecl, Option.bind_some, hkey]
      rw [stub?_eq_inl_iff.mpr hidKey, Entry.of]
      exact Entry.stub_ofKey fun k hkind hindex => (hnames howner hidKey hkind hindex).1

/-- The content of a container tells its roster. -/
theorem roster_eq (id : DeclId) : g.roster id = (g.content id).entries.map Entry.stub := by
  have hback : ∀ stub ∈ g.roster id, (Entry.stub ∘ Entry.of) stub = stub := by
    intro stub hstub
    obtain ⟨member, hmember, rfl⟩ := List.mem_map.mp hstub
    exact stub_entry hg hnames (hg.mem_memberIds.mp hmember)
  rw [content, List.map_map, List.map_congr_left hback, List.map_id']

/-- Every container is at a place. -/
theorem exists_place {address : List Key} {id : DeclId} (hid : g.locate address = some id) :
    ∃ place : Place, place.address = address ∧ g.Reaches place := by
  induction address using List.reverseRecOn generalizing id with
  | nil => exact ⟨.plain ⟨[], List.forall_mem_nil _⟩, rfl, trivial⟩
  | append_singleton above key ih =>
      rw [locate_append_singleton] at hid
      obtain ⟨container, hcontainer, hlookup⟩ := Option.bind_eq_some_iff.mp hid
      obtain ⟨howner, hkey⟩ := hg.lookup_eq_some.mp hlookup
      obtain ⟨place, haddress, hreaches⟩ := ih hcontainer
      cases place with
      | behind address kind number below =>
          refine ⟨.behind address kind number (below ++ [key]), ?_, hreaches⟩
          rw [← haddress, Place.address, Place.address, List.append_assoc, List.cons_append]
      | plain address =>
          obtain rfl : address.1 = above := haddress
          cases hanonymous : key.isAnonymous with
          | false =>
              refine ⟨.plain ⟨address.1 ++ [key], plainAddress_append.mpr
                ⟨address.2, plainAddress_singleton.mpr hanonymous⟩⟩, rfl, trivial⟩
          | true =>
              obtain ⟨hkind, k, hindex⟩ := Key.isAnonymous_iff.mp hanonymous
              obtain ⟨hname, hle, -⟩ := hnames howner hkey hkind hindex
              refine ⟨.behind address ⟨key.1, hkind⟩ k.toNat [], ?_, ?_⟩
              · rw [Place.address, UInt32.ofNat_toNat, ← hname]
              · rw [Reaches, countAt_of_locate hcontainer]
                exact hle

/-- What graphs with the same contents have at one address is the same. -/
theorem content_eq_of_contents_eq (hsame : g.contents = h.contents) {address : List Key}
    {id e : DeclId} (hid : g.locate address = some id) (he : h.locate address = some e) :
    g.content id = h.content e := by
  obtain ⟨place, rfl, hreaches⟩ := exists_place hg hnames hid
  have hthere : h.Reaches place := by
    cases place with
    | plain address => trivial
    | behind address kind number below =>
        have hcounts := congrArg Content.issued (congrFun hsame (.plain address))
        rw [issued_contents_plain, issued_contents_plain] at hcounts
        rw [Reaches] at hreaches ⊢
        rwa [← hcounts]
  have hcontent := congrFun hsame place
  rwa [contents_of_reaches hreaches, contents_of_reaches hthere, hid, he] at hcontent

variable (hh : Coherent h) (hhNames : NamesIssued h)

include hh hhNames

/-- Graphs with the same contents are aligned. -/
theorem aligned_of_contents_eq (hsame : g.contents = h.contents) : Aligned g h := by
  have hrosters : ∀ {address : List Key} {id e : DeclId}, g.locate address = some id →
      h.locate address = some e → h.roster e = g.roster id := by
    intro address id e hid he
    have hcontent := content_eq_of_contents_eq hg hnames hsame hid he
    rw [roster_eq hg hnames, roster_eq hh hhNames, hcontent]
  intro address id hid
  induction address using List.reverseRecOn generalizing id with
  | nil => exact ⟨root, rfl, hrosters hid rfl⟩
  | append_singleton above key ih =>
      have hfound := hid
      rw [locate_append_singleton] at hfound
      obtain ⟨container, hcontainer, hlookup⟩ := Option.bind_eq_some_iff.mp hfound
      obtain ⟨partner, hpartner, hroster⟩ := ih hcontainer
      have hshown := hg.mem_roster_of_lookup hlookup
      rw [← hroster] at hshown
      obtain ⟨member, hmember⟩ := hh.exists_lookup_of_mem_roster hshown
      have hlocated : h.locate (above ++ [key]) = some member := by
        rw [locate_append_singleton, hpartner, Option.bind_some, hmember]
      exact ⟨member, hlocated, hrosters hid hlocated⟩

/-- Graphs with the same contents are renumberings of each other. -/
theorem renumbering_of_contents_eq (hsame : g.contents = h.contents) :
    Renumbering id g h (counterpart g h) := by
  have haligned : Aligned g h := aligned_of_contents_eq hg hnames hh hhNames hsame
  apply haligned.renumbering hg hh fun _ _ => rfl
  intro address id e hid he
  have hcontent := content_eq_of_contents_eq hg hnames hsame hid he
  have hkeys : ∃ key, g.key? id = some key ∧ h.key? e = some key := by
    obtain rfl | ⟨above, key, rfl⟩ := address.eq_nil_or_concat
    · obtain rfl := Option.some.inj hid
      obtain rfl := Option.some.inj he
      exact ⟨_, hg.key?_root, hh.key?_root⟩
    · rw [List.concat_eq_append, locate_append_singleton] at hid he
      obtain ⟨_, -, hfound⟩ := Option.bind_eq_some_iff.mp hid
      obtain ⟨_, -, hother⟩ := Option.bind_eq_some_iff.mp he
      exact ⟨key, (hg.lookup_eq_some.mp hfound).2, (hh.lookup_eq_some.mp hother).2⟩
  obtain ⟨key, hkey, hother⟩ := hkeys
  obtain ⟨a, ha, haKey⟩ := Option.bind_eq_some_iff.mp hkey
  obtain ⟨b, hb, hbKey⟩ := Option.bind_eq_some_iff.mp hother
  have hissued := congrArg Content.issued hcontent
  have hbody := congrArg Content.klass hcontent
  simp only [content, Graph.issued, Graph.header?, ha, hb, Option.map_some, Option.getD_some,
    Option.bind_some, Decl.body?_header, UInt32.toNat_inj] at hissued hbody
  rw [Graph.header?, Graph.header?, ha, hb, Option.map_some, Option.map_some, Option.map_some,
    Decl.header_eq_of haKey hbKey hissued hbody]

end Same

end Graph
end DeclGraph

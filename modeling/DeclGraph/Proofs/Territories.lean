import DeclGraph.Proofs.Lockstep

/-!
# Requests see one container

A request that is made of a container looks at it and at nothing else: at its header, at
its members, and at what these show of themselves.  What it writes, it writes there and
into the next slot.  So two graphs in which the container looks the same, up to the
numbers of the slots, answer the request alike, and it looks the same in both of them
afterwards.

Main results:

- Theorem `Graph.Looks.perform`: a request is answered alike where its container looks
  the same.
- Theorem `Graph.Coherent.touches`: a request leaves alone whatever is not its container.
-/

namespace DeclGraph

open DeclGraph.Graph

namespace Request

/-- The container that a request is made of. An edit is made of no container. -/
def target? : Request → Option DeclId
  | package container _ | klass container _ | object container _ | field container _
  | method container _ | comment container _ | issueName container
  | dropDuplicate container _ => some container
  | editClass _ _ | editObject _ _ | editField _ _ | editMethod _ _ => none

/-- What a request mentions beside the container. -/
def mention? : Request → Option DeclId
  | dropDuplicate _ id => some id
  | _ => none

/-- Such a request may be made of every graph. -/
theorem admitted_of_target? {request : Request} {container : DeclId}
    (h : request.target? = some container) (record : Record) (g : Graph) :
    request.Admitted anyName record g := by
  cases request with
  | klass | object => exact fun _ => trivial
  | editClass | editObject => contradiction
  | _ => trivial

end Request

namespace Graph

/-! ## What is left alone -/

/-- A count of issued names is not shown. -/
theorem stub?_issue (g : Graph) (c id : DeclId) :
    (g.modify c (Decl.mapScope Scope.issue)).stub? id = g.stub? id := by
  have hstub : ∀ decl : Decl, (decl.mapScope Scope.issue).stub = decl.stub := by
    intro decl
    cases decl <;> rfl
  rw [Graph.stub?, get?_modify, Graph.stub?]
  split <;> simp [Function.comp_def, hstub]

/-- Whether something was taken out is not shown. -/
theorem stub?_detach (g : Graph) (c member id : DeclId) :
    (g.detach c member).stub? id = g.stub? id := by
  rw [stub?_eq_header?, header?_detach, stub?_eq_header?]

/-- From the one graph to the other only the container `c` and the next slot were written to, and
the container still shows the same of itself. -/
structure Touches (c : DeclId) (g g' : Graph) : Prop where
  /-- One slot was filled at most. -/
  size : g'.size = g.size ∨ g'.size = g.size + 1
  /-- The other slots keep their headers. -/
  header? : ∀ {id : DeclId}, id ≠ c → id.index < g.size → g'.header? id = g.header? id
  /-- The other containers keep their members. -/
  memberIds : ∀ {id : DeclId}, id ≠ c → g'.memberIds id = g.memberIds id
  /-- Every slot shows the same of itself. -/
  stub? : ∀ {id : DeclId}, id.index < g.size → g'.stub? id = g.stub? id

namespace Touches

variable {g g' : Graph} {c : DeclId}

theorem size_le (h : Touches c g g') : g.size ≤ g'.size := by
  rcases h.size with hsize | hsize <;> omega

/-- A slot was there before, or it is the one that was filled, or it is not filled. -/
theorem slot_cases (h : Touches c g g') (hg : Coherent g) (id : DeclId) :
    id.index < g.size ∨ (g.size < g'.size ∧ id = g.nextId) ∨ g'.size ≤ id.index := by
  rcases Nat.lt_trichotomy id.index g.size with hold | hnext | hbeyond
  · exact Or.inl hold
  · by_cases hgrown : g.size < g'.size
    · exact Or.inr (Or.inl
        ⟨hgrown, DeclId.eq_of_index_eq (hnext.trans (index_nextId hg.size_lt).symm)⟩)
    · exact Or.inr (Or.inr (Nat.le_trans (Nat.le_of_not_lt hgrown) (Nat.le_of_eq hnext.symm)))
  · rcases h.size with hsame | hone
    · exact Or.inr (Or.inr (hsame ▸ Nat.le_of_lt hbeyond))
    · exact Or.inr (Or.inr (hone ▸ hbeyond))

theorem refl (c : DeclId) (g : Graph) : Touches c g g :=
  ⟨Or.inl rfl, fun _ _ => rfl, fun _ => rfl, fun _ => rfl⟩

/-- A new member is written into its container and into the next slot. -/
theorem enlist (hg : Coherent g) {decl : Decl} (hfits : Fits g c decl) :
    Touches c g (g.enlist c decl) := by
  have hold : ∀ {id : DeclId}, id.index < g.size →
      (g.enlist c decl).header? id = g.header? id := by
    intro id hlt
    rw [hfits.header? hg, if_neg (ne_nextId_of_lt hg.size_lt hlt)]
  exact {
    size := Or.inr (size_enlist g c decl)
    header? := fun _ => hold
    memberIds := fun hne => by rw [hfits.mem_memberIds hg, if_neg hne]
    stub? := fun hlt => by rw [stub?_eq_header?, hold hlt, stub?_eq_header?] }

/-- An issued name is counted in its container. -/
theorem issue (c : DeclId) (g : Graph) : Touches c g (g.modify c (Decl.mapScope Scope.issue)) where
  size := Or.inl (size_modify g c _)
  header? := fun hne _ => by rw [header?_modify, if_neg hne]
  memberIds := fun _ => (sameTree_modify fun decl _ => samePlace_mapScope_issue decl).memberIds _
  stub? := fun _ => stub?_issue g c _

/-- A method that is taken out is taken out of its container. -/
theorem detach (g : Graph) (c member : DeclId) : Touches c g (g.detach c member) where
  size := Or.inl (size_detach g c member)
  header? := fun _ _ => header?_detach g c member _
  memberIds := fun hne => by rw [memberIds_detach, if_neg hne]
  stub? := fun _ => stub?_detach g c member _

end Touches

/-! ## What is looked at -/

/-- Up to the numbers of the slots, the container `f c` of the graph `h` looks as the container `c`
of the graph `g` does. -/
structure Looks (f : DeclId → DeclId) (c : DeclId) (g h : Graph) : Prop where
  /-- The two have one header. -/
  header? : h.header? (f c) = g.header? c
  /-- The two have the same members in the same order. -/
  memberIds : h.memberIds (f c) = (g.memberIds c).map f
  /-- The members show the same of themselves. -/
  stub? : ∀ member ∈ g.memberIds c, h.stub? (f member) = g.stub? member

/-- From `g` to `g'` and from `h` to `h'` the same was written into a container that looks the
same. -/
structure Follows (f : DeclId → DeclId) (c : DeclId) (g g' h h' : Graph) : Prop where
  /-- In the one graph nothing but the container was touched. -/
  touches : Touches c g g'
  /-- In the other one neither. -/
  touches' : Touches (f c) h h'
  /-- The container still looks the same. -/
  looks : Looks f c g' h'
  /-- A slot was filled in both graphs or in none. -/
  size : h'.size + g.size = h.size + g'.size
  /-- What was filled in has one header. -/
  header? : g.size < g'.size → h'.header? h.nextId = g'.header? g.nextId

/-- What shows the same is the same method or none. -/
theorem method?_eq_of_stub?_eq {g h : Graph} {a b : DeclId} (hstub : h.stub? b = g.stub? a) :
    h.method? b = g.method? a := by
  have hmethod : ∀ {k : Graph} {id : DeclId}, k.method? id =
      (k.stub? id).bind fun shown => shown.elim (fun _ => none) Decl.method? := by
    intro k id
    rw [method?, Graph.stub?]
    cases k.get? id with
    | none => rfl
    | some decl => cases decl <;> rfl
  rw [hmethod, hmethod, hstub]

namespace Looks

variable {f : DeclId → DeclId} {c : DeclId} {g h : Graph}

theorem refl (c : DeclId) (g : Graph) : Looks id c g g where
  header? := rfl
  memberIds := by simp
  stub? := fun _ _ => rfl

section Views

variable (hlooks : Looks f c g h)

include hlooks

theorem key? : h.key? (f c) = g.key? c := by
  rw [key?_eq_header?, hlooks.header?, key?_eq_header?]

theorem issued : h.issued (f c) = g.issued c := by
  rw [issued_eq_header?, hlooks.header?, issued_eq_header?]

/-- What is found in the one is found in the other. -/
theorem lookup (hg : Coherent g) (hh : Coherent h) (key : Key) :
    h.lookup (f c) key = (g.lookup c key).map f :=
  lookup_of_copied hg hh hlooks.memberIds
    (fun member hmember => key?_eq_of_stub?_eq (hlooks.stub? member hmember)) key

/-- As long as nothing is done, nothing differs. -/
theorem follows : Follows f c g g h h where
  touches := Touches.refl c g
  touches' := Touches.refl (f c) h
  looks := hlooks
  size := Nat.add_comm _ _ |>.trans (Nat.add_comm _ _)
  header? := fun hlt => absurd hlt (Nat.lt_irrefl _)

end Views

/-! ## What is written -/

section Writing

variable (hlooks : Looks f c g h) (hf : Function.Injective f) (hg : Coherent g) (hh : Coherent h)

include hlooks hf hg hh

/-- A new member that looks the same is enlisted. -/
theorem enlist {decl decl' : Decl} (hfits : Fits g c decl) (hfits' : Fits h (f c) decl')
    (hheader : decl'.header = decl.header) (hnext : f g.nextId = h.nextId) :
    Follows f c g (g.enlist c decl) h (h.enlist (f c) decl') where
  touches := Touches.enlist hg hfits
  touches' := Touches.enlist hh hfits'
  looks := by
    have hne : c ≠ g.nextId := by
      rintro rfl
      obtain ⟨key, hkey⟩ := Option.isSome_iff_exists.mp hfits.isContainer
      exact ne_nextId_of_key? hg.size_lt hkey rfl
    have hne' : ∀ {id : DeclId}, id ≠ g.nextId → f id ≠ h.nextId := by
      intro id hid hsame
      exact hid (hf (hsame.trans hnext.symm))
    exact {
      header? := by
        rw [hfits'.header? hh, if_neg (hne' hne), hfits.header? hg, if_neg hne, hlooks.header?]
      memberIds := by
        rw [hfits'.mem_memberIds hh, if_pos rfl, hfits.mem_memberIds hg, if_pos rfl,
          hlooks.memberIds, List.map_append, List.map_singleton, hnext]
      stub? := by
        intro member hmember
        rw [stub?_eq_header?, stub?_eq_header?, hfits'.header? hh, hfits.header? hg]
        by_cases hnew : member = g.nextId
        · rw [if_pos hnew, hnew, hnext, if_pos rfl, hheader]
        · rw [if_neg hnew, if_neg (hne' hnew), ← stub?_eq_header?, ← stub?_eq_header?]
          rw [hfits.mem_memberIds hg, if_pos rfl, List.mem_append, List.mem_singleton] at hmember
          exact hlooks.stub? member (hmember.resolve_right hnew) }
  size := by
    rw [size_enlist, size_enlist]
    omega
  header? := fun _ => by
    rw [hfits'.header? hh, if_pos rfl, hfits.header? hg, if_pos rfl, hheader]

/-- The same is found or made. -/
theorem ensured {key : Key} (hcontainer : (g.key? c).isSome) (hkind : key.1.isContainer)
    (hpackage : key.1 = .package → g.kind? c = some .package)
    (hnext : g.size < (g.ensured c key).2.size → f g.nextId = h.nextId) :
    (h.ensured (f c) key).1 = f (g.ensured c key).1 ∧
      Follows f c g (g.ensured c key).2 h (h.ensured (f c) key).2 := by
  have hlookup := hlooks.lookup hg hh key
  unfold Graph.ensured at hnext ⊢
  cases hfound : g.lookup c key with
  | some id =>
      rw [hfound, Option.map_some] at hlookup
      rw [hlookup]
      exact ⟨rfl, hlooks.follows⟩
  | none =>
      rw [hfound, Option.map_none] at hlookup
      simp only [hfound, size_enlist, Nat.lt_succ_self, forall_const] at hnext
      have hheader : (h.newcomer (f c) key).header = (g.newcomer c key).header := by
        rw [newcomer, header_bare, newcomer, header_bare]
      have hfits' : Fits h (f c) (h.newcomer (f c) key) :=
        fits_newcomer (by rwa [hlooks.key?]) hkind hlookup
          fun hkey => kind?_package_of_key?_eq hlooks.key? (hpackage hkey)
      rw [hlookup]
      exact ⟨hnext.symm, hlooks.enlist hf hg hh (fits_newcomer hcontainer hkind hfound hpackage)
        hfits' hheader hnext⟩

omit hf hg hh in
/-- The same name is issued. -/
theorem issue : Follows f c g (g.modify c (Decl.mapScope Scope.issue)) h
    (h.modify (f c) (Decl.mapScope Scope.issue)) where
  touches := Touches.issue c g
  touches' := Touches.issue (f c) h
  looks := by
    have hsame : ∀ (k : Graph) (id : DeclId),
        SameTree k (k.modify id (Decl.mapScope Scope.issue)) :=
      fun _ _ => sameTree_modify fun decl _ => samePlace_mapScope_issue decl
    have hissue : ∀ (k : Graph) (id : DeclId),
        ((k.modify id (Decl.mapScope Scope.issue)).header? id) =
          (k.header? id).map (Decl.mapScope Scope.issue) := by
      intro k id
      rw [header?_modify, if_pos rfl, Graph.header?, Option.map_map]
      congr 1
      funext decl
      cases decl <;> rfl
    exact {
      header? := by rw [hissue, hissue, hlooks.header?]
      memberIds := by rw [(hsame h _).memberIds, (hsame g _).memberIds, hlooks.memberIds]
      stub? := by
        intro member hmember
        rw [(hsame g _).memberIds] at hmember
        rw [stub?_issue, stub?_issue, hlooks.stub? member hmember] }
  size := by
    rw [size_modify, size_modify, Nat.add_comm]
  header? := fun hlt => absurd hlt (by rw [size_modify]; exact Nat.lt_irrefl _)

omit hg hh in
/-- The same method is taken out. -/
theorem detach (member : DeclId) :
    Follows f c g (g.detach c member) h (h.detach (f c) (f member)) where
  touches := Touches.detach g c member
  touches' := Touches.detach h (f c) (f member)
  looks := {
    header? := by rw [header?_detach, header?_detach, hlooks.header?]
    memberIds := by
      rw [memberIds_detach, if_pos rfl, memberIds_detach, if_pos rfl, hlooks.memberIds,
        List.map_erase hf]
    stub? := by
      intro other hother
      rw [memberIds_detach, if_pos rfl] at hother
      rw [stub?_detach, stub?_detach, hlooks.stub? other (List.mem_of_mem_erase hother)] }
  size := by
    rw [size_detach, size_detach, Nat.add_comm]
  header? := fun hlt => absurd hlt (by rw [size_detach]; exact Nat.lt_irrefl _)

omit hg hh in
/-- The same methods are there twice. -/
theorem isDuplicate_iff {id : DeclId} (hid : h.stub? (f id) = g.stub? id) {duplicate : Bool} :
    h.isDuplicate (f c) (f id) = .ok duplicate ↔ g.isDuplicate c id = .ok duplicate := by
  have hcontains : ((g.memberIds c).map f).contains (f id) = (g.memberIds c).contains id := by
    rw [Bool.eq_iff_iff, List.contains_iff_mem, List.contains_iff_mem,
      List.mem_map_of_injective hf]
  have halike : ∀ method, h.anyAlike ((g.memberIds c).map f) (f id) method =
      g.anyAlike (g.memberIds c) id method := by
    intro method
    rw [anyAlike, anyAlike, List.any_map, Bool.eq_iff_iff, List.any_eq_true, List.any_eq_true]
    refine exists_congr fun other => and_congr_right fun hother => ?_
    simp only [Function.comp_apply, ne_eq, hf.eq_iff,
      method?_eq_of_stub?_eq (hlooks.stub? other hother)]
  rw [isDuplicate_eq_ok_iff, isDuplicate_eq_ok_iff, method?_eq_of_stub?_eq hid, hlooks.key?,
    hlooks.memberIds]
  simp only [hcontains, halike]

/-! ## Requests -/

/-- A package, class or object is asked for in both graphs. -/
private theorem perform_wanted {request : Request} {key : Key}
    (hwanted : request.wanted? = some (c, key)) {answer : Answer} {g' : Graph}
    (hrun : request.perform g = .ok answer g') (hnext : g.size < g'.size → f g.nextId = h.nextId) :
    ∃ h', (request.renumber f).perform h = .ok (answer.renumber f) h' ∧
      Follows f c g g' h h' := by
  obtain ⟨⟨hcontainer, hpackage⟩, rfl, rfl⟩ := (Request.perform_wanted_iff hwanted).mp hrun
  obtain ⟨hid, hfollows⟩ := hlooks.ensured hf hg hh hcontainer
    (Request.isContainer_of_wanted? hwanted) hpackage hnext
  have hdone := (Request.perform_wanted_iff (Request.wanted?_renumber hwanted f)).mpr
    ⟨⟨by rwa [hlooks.key?], fun h => kind?_package_of_key?_eq hlooks.key? (hpackage h)⟩, rfl, rfl⟩
  rw [hid] at hdone
  exact ⟨_, hdone, hfollows⟩

/-- A field, a method or a comment is added in both graphs. -/
private theorem perform_added {request : Request} {decl : Decl}
    (hadded : request.added? = some (c, decl)) {answer : Answer} {g' : Graph}
    (hrun : request.perform g = .ok answer g') (hnext : g.size < g'.size → f g.nextId = h.nextId) :
    ∃ h', (request.renumber f).perform h = .ok (answer.renumber f) h' ∧
      Follows f c g g' h h' := by
  obtain ⟨hcontainer, rfl, rfl⟩ := (Request.perform_added_iff hadded).mp hrun
  have hleaf := Request.key?_of_added? hadded
  have hcontainer' : (h.key? (f c)).isSome := by rwa [hlooks.key?]
  have hnew := hnext (by rw [size_enlist]; exact Nat.lt_succ_self _)
  have hdone := (Request.perform_added_iff (Request.added?_renumber hadded f)).mpr
    ⟨hcontainer', rfl, rfl⟩
  rw [← hnew] at hdone
  exact ⟨_, hdone, hlooks.enlist hf hg hh (fits_leaf hcontainer hleaf) (fits_leaf hcontainer' hleaf)
    rfl hnew⟩

/-- A request is answered alike where its container looks the same, and the container looks the
same afterwards. -/
theorem perform {request : Request} (htarget : request.target? = some c)
    (hmention : ∀ id, request.mention? = some id → h.stub? (f id) = g.stub? id)
    {answer : Answer} {g' : Graph} (hrun : request.perform g = .ok answer g')
    (hnext : g.size < g'.size → f g.nextId = h.nextId) :
    ∃ h', (request.renumber f).perform h = .ok (answer.renumber f) h' ∧
      Follows f c g g' h h' := by
  cases request with
  | package container name | klass container name | object container name =>
      obtain rfl := Option.some.inj htarget
      exact hlooks.perform_wanted hf hg hh rfl hrun hnext
  | field container name | method container name | comment container text =>
      obtain rfl := Option.some.inj htarget
      exact hlooks.perform_added hf hg hh rfl hrun hnext
  | issueName container =>
      obtain rfl := Option.some.inj htarget
      obtain ⟨name, hasked, rfl⟩ := Build.exists_of_map_eq_ok hrun
      obtain ⟨hcontainer, hleft, rfl, rfl⟩ := exists_of_issueName hasked
      obtain ⟨h', hasked'⟩ : ∃ h', Graph.issueName (f container) h = .ok _ h' :=
        exists_issueName (by rwa [hlooks.key?]) (by rwa [hlooks.issued])
      obtain ⟨-, -, -, rfl⟩ := exists_of_issueName hasked'
      rw [hlooks.issued] at hasked'
      exact ⟨_, Build.map_of_ok hasked' _, hlooks.issue⟩
  | dropDuplicate container id =>
      obtain rfl := Option.some.inj htarget
      obtain ⟨dropped, hasked, rfl⟩ := Build.exists_of_map_eq_ok hrun
      obtain ⟨duplicate, hduplicate, hact⟩ := Build.exists_of_checked_eq_ok hasked
      obtain ⟨rfl, rfl⟩ := Prod.mk.inj hact
      have hduplicate' := (hlooks.isDuplicate_iff hf (hmention id rfl)).mpr hduplicate
      refine ⟨_, Build.map_of_ok (Build.checked_of_ok hduplicate') _, ?_⟩
      cases duplicate with
      | false => exact hlooks.follows
      | true => exact hlooks.detach hf id
  | editClass | editObject | editField | editMethod => contradiction

end Writing
end Looks

/-- A request leaves alone whatever is not its container. -/
theorem Coherent.touches {g g' : Graph} (hg : Coherent g) {request : Request} {c : DeclId}
    (htarget : request.target? = some c) {answer : Answer}
    (hrun : request.perform g = .ok answer g') : Touches c g g' := by
  obtain ⟨_, -, hfollows⟩ := (Looks.refl c g).perform Function.injective_id hg hg htarget
    (fun _ _ => rfl) hrun fun _ => rfl
  exact hfollows.touches

end Graph
end DeclGraph

import DeclGraph.Proofs.Protocol

/-!
# Requests step by step

A request may look its container up more than once, the last time when the slot of
the new member is filled already.  Here every request is made of single steps: each
of them looks up for itself what it needs, and each of them may be refused.  What a
refused request has written by then depends on the order of its steps.

On a coherent graph the steps of a request come to what the request itself comes to,
also where it is refused.  A step that writes is never refused there, because an
earlier step that only reads would have been refused already.

Main results:

- Theorem `Graph.enter_append`: a slot that was just filled can be entered into its
  container.
- Theorem `Graph.ensureStepwise_of_container`: in a container the steps find the member
  under a key or make it.
- Theorem `Request.stepwise_eq`: on a coherent graph the steps of a request come to
  the request.
-/

namespace DeclGraph

/-! ## Single steps -/

/-- Ask the graph something that it always answers. -/
def Build.look {answer : Type} (query : Graph → answer) : Build answer := fun g =>
  .ok (query g) g

theorem Build.look_eq {answer : Type} (query : Graph → answer) (g : Graph) :
    look query g = .ok (query g) g :=
  rfl

namespace Graph

/-- Fill the next slot, before its container knows of it. -/
def allot (container : DeclId) (decl : Decl) : Build DeclId := fun g =>
  .ok g.nextId (g.append container decl)

/-- Enter a slot into a container. -/
def enter (container : DeclId) (key : Option Key) (id : DeclId) : Build Unit :=
  Build.checked (issuingScope · container) fun _ g =>
    ((), g.modify container (Decl.mapScope (Scope.add · key id)))

/-- Strike a slot from a container. -/
def strike (container id : DeclId) : Build Unit :=
  Build.checked (issuingScope · container) fun _ g =>
    ((), g.modify container (Decl.mapScope (Scope.drop · id)))

/-- The entry of a slot in the table of owners. -/
def ownerEntry (g : Graph) (id : DeclId) : Except Violation (Option DeclId) :=
  match g.owners[id.index]? with
  | none => .error (.unknownDecl id)
  | some owner => .ok owner

/-- Clear the entry of a slot in the table of owners. -/
def disown (id : DeclId) : Build Unit :=
  Build.checked (ownerEntry · id) fun _ g =>
    ((), { g with owners := g.owners.modify id.index fun _ => none })

/-- The member that a new member under this key is the companion of. -/
def findPartner (g : Graph) (container : DeclId) (key : Key) : Except Violation (Option DeclId) :=
  match key.partner? with
  | none => .ok none
  | some partner => g.find? partner.1 container partner.2

/-! ## Requests in steps -/

/-- The member under a key. If there is none it is made: a slot is filled, the container is looked
up again to enter the slot, and last the companion is told of it. -/
def ensureStepwise (container : DeclId) (key : Key) : Build DeclId := do
  match ← Build.read (find? · key.1 container key.2) with
  | some existing => return existing
  | none =>
    let companion ← Build.read (findPartner · container key)
    let id ← allot container (bare key companion)
    enter container (some key) id
    Build.update (linkBack · companion id)
    return id

/-- A new member that is not indexed. The container is looked up before and after the slot is
filled. -/
def addStepwise (container : DeclId) (decl : Decl) : Build DeclId := do
  let _ ← Build.read (Graph.scope · container)
  let id ← allot container decl
  enter container none id
  return id

/-- An anonymous name, after the container was looked up and its count compared. -/
def issueStepwise (container : DeclId) : Build Name := do
  let scope ← Build.read (issuingScope · container)
  if scope.issued.toNat + 1 < UInt32.size then
    Build.update (·.modify container (Decl.mapScope Scope.issue))
    return Name.anonymous scope.issue.issued
  else
    throw .namesExhausted

/-- Take out a method that is there twice: first it is struck from the container, then its owner is
cleared. -/
def dropStepwise (container id : DeclId) : Build Bool := do
  match ← Build.look (·.method? id) with
  | none => return false
  | some method =>
    let ids ← Build.read (members · container)
    if ids.contains id then
      if ← Build.look (·.anyAlike ids id method) then
        strike container id
        disown id
        return true
      else
        return false
    else
      return false

end Graph

open DeclGraph.Graph

/-- A request carried out step by step. An edit is a single step as it is. -/
def Request.stepwise : Request → Build Answer
  | package container name => do
    let _ ← Build.read (packageScope · container)
    .id <$> ensureStepwise container (.package, name)
  | klass container name => .id <$> ensureStepwise container (.klass, name)
  | object container name => .id <$> ensureStepwise container (.object, name)
  | field container name => .id <$> addStepwise container (.field { name })
  | method container name => .id <$> addStepwise container (.method { name })
  | comment container text => .id <$> addStepwise container (.comment text)
  | issueName container => .name <$> issueStepwise container
  | dropDuplicate container id => .dropped <$> dropStepwise container id
  | edit => edit.perform

namespace Graph

variable {g : Graph} {container : DeclId}

/-! ## Steps that are not refused -/

/-- A container stays one when a slot is filled. -/
theorem key?_append (hcontainer : (g.key? container).isSome) (owner : DeclId) (decl : Decl) :
    (g.append owner decl).key? container = g.key? container := by
  obtain ⟨key, hkey⟩ := Option.isSome_iff_exists.mp hcontainer
  rw [key?, get?_append_old g owner container decl (index_lt_of_key? hkey), key?]

/-- A container lets itself be changed. -/
theorem exists_issuingScope (hcontainer : (g.key? container).isSome) :
    ∃ scope, g.issuingScope container = .ok scope := by
  obtain ⟨scope, hscope, -⟩ := exists_scope hcontainer
  exact ⟨scope, issuingScope_of_scope hscope⟩

theorem allot_eq (g : Graph) (container : DeclId) (decl : Decl) :
    allot container decl g = .ok g.nextId (g.append container decl) :=
  rfl

/-- A slot that was just filled can be entered into its container. -/
theorem enter_append (hcontainer : (g.key? container).isSome) (decl : Decl) :
    enter container decl.key? g.nextId (g.append container decl) =
      .ok () (g.attach container decl) := by
  rw [← key?_append hcontainer container decl] at hcontainer
  obtain ⟨scope, hscope⟩ := exists_issuingScope hcontainer
  rw [enter, Build.checked_of_ok hscope]
  rfl

/-- A container gives up its members. -/
theorem strike_eq (hcontainer : (g.key? container).isSome) (id : DeclId) :
    strike container id g = .ok () (g.modify container (Decl.mapScope (Scope.drop · id))) := by
  obtain ⟨scope, hscope⟩ := exists_issuingScope hcontainer
  rw [strike, Build.checked_of_ok hscope]

/-- A slot that was struck from its container loses its owner. -/
theorem disown_eq {id : DeclId} (hid : id.index < g.owners.size) :
    disown id (g.modify container (Decl.mapScope (Scope.drop · id))) =
      .ok () (g.detach container id) := by
  have hentry : (g.modify container (Decl.mapScope (Scope.drop · id))).ownerEntry id =
      .ok g.owners[id.index] := by
    simp [ownerEntry, hid]
  rw [disown, Build.checked_of_ok hentry]
  rfl

/-! ## Members under a key -/

theorem findPartner_of_container (hcontainer : (g.key? container).isSome) (key : Key) :
    g.findPartner container key = .ok (key.partner?.bind (g.lookup container)) := by
  unfold findPartner
  cases key.partner? with
  | none => rfl
  | some partner => exact find?_eq_ok_iff.mpr ⟨hcontainer, rfl⟩

/-- The companion of what is made is the one it is made with. -/
theorem companion?_bare {key : Key} {companion : Option DeclId}
    (h : key.partner? = none → companion = none) : (bare key companion).companion? = companion := by
  obtain ⟨kind, name⟩ := key
  cases kind <;> first | rfl | exact (h rfl).symm

/-- In a container the steps find a member or make it. -/
theorem ensureStepwise_of_container (hcontainer : (g.key? container).isSome) {key : Key}
    (hkey : key.1.isContainer) :
    ensureStepwise container key g =
      .ok (g.ensured container key).1 (g.ensured container key).2 := by
  have hfind := Build.read_of_ok (find? · key.1 container key.2)
    (find?_eq_ok_iff.mpr ⟨hcontainer, rfl⟩)
  rw [ensureStepwise, Build.bind_of_ok hfind]
  cases hlookup : g.lookup container key with
  | some id =>
      simp only [ensured, hlookup]
      rfl
  | none =>
      -- The companion is looked up before a slot is filled, and so it is that of a newcomer.
      have hpartner := Build.read_of_ok (findPartner · container key)
        (findPartner_of_container hcontainer key)
      have hmade : (g.newcomer container key).companion? =
          key.partner?.bind (g.lookup container) :=
        companion?_bare fun hnone => by rw [hnone, Option.bind_none]
      have henter := enter_append hcontainer (g.newcomer container key)
      rw [newcomer, key?_bare hkey] at henter
      simp only [ensured, hlookup]
      rw [Build.bind_of_ok hpartner, Build.bind_of_ok (allot_eq ..), Build.bind_of_ok henter,
        Build.bind_of_ok (Build.update_eq ..), enlist, hmade]
      rfl

/-- The steps for a class or object come to a request that checks for a container first. -/
theorem ensureStepwise_eq_checked {key : Key} (hkey : key.1.isContainer)
    {act : Scope → Graph → DeclId × Graph}
    (hact : (g.key? container).isSome → Build.checked (Graph.scope · container) act g =
      .ok (g.ensured container key).1 (g.ensured container key).2) :
    ensureStepwise container key g = Build.checked (Graph.scope · container) act g := by
  cases hscope : g.scope container with
  | ok scope =>
      have hcontainer := isSome_key?_of_scope hscope
      rw [hact hcontainer, ensureStepwise_of_container hcontainer hkey]
  | error violation =>
      have hfind : g.find? key.1 container key.2 = .error violation := by
        rw [find?, hscope]
        rfl
      rw [Build.checked_of_error hscope, ensureStepwise,
        Build.bind_of_error (Build.read_of_error _ hfind)]

/-! ## Other requests -/

/-- The steps for a new member come to the request for it. -/
theorem addStepwise_eq {decl : Decl} (hleaf : decl.key? = none) :
    addStepwise container decl g = addMember container decl g := by
  cases hscope : g.scope container with
  | ok scope =>
      have henter := enter_append (isSome_key?_of_scope hscope) decl
      rw [hleaf] at henter
      rw [addMember, Build.checked_of_ok hscope, addStepwise,
        Build.bind_of_ok (Build.read_of_ok _ hscope), Build.bind_of_ok (allot_eq ..),
        Build.bind_of_ok henter]
      rfl
  | error violation =>
      rw [addMember, Build.checked_of_error hscope, addStepwise,
        Build.bind_of_error (Build.read_of_error _ hscope)]

/-- The steps for a name come to the request for it. -/
theorem issueStepwise_eq : issueStepwise container g = issueName container g := by
  cases hscope : g.issuingScope container with
  | ok scope =>
      rw [issueStepwise, Build.bind_of_ok (Build.read_of_ok _ hscope)]
      by_cases hleft : scope.issued.toNat + 1 < UInt32.size
      · have hunspent : g.unspentScope container = .ok scope := by
          simp only [unspentScope, hscope, if_pos hleft]
        rw [issueName, Build.checked_of_ok hunspent, if_pos hleft]
        rfl
      · have hunspent : g.unspentScope container = .error .namesExhausted := by
          simp only [unspentScope, hscope, if_neg hleft]
        rw [issueName, Build.checked_of_error hunspent, if_neg hleft]
        rfl
  | error violation =>
      have hunspent : g.unspentScope container = .error violation := by
        simp only [unspentScope, hscope]
      rw [issueName, Build.checked_of_error hunspent, issueStepwise,
        Build.bind_of_error (Build.read_of_error _ hscope)]

/-- The steps that take out a method come to the request for it, when there is an owner entry for
each slot. -/
theorem dropStepwise_eq (howners : g.owners.size = g.size) (id : DeclId) :
    dropStepwise container id g = dropDuplicate container id g := by
  rw [dropStepwise, Build.bind_of_ok (Build.look_eq ..)]
  cases hmethod : g.method? id with
  | none =>
      have hduplicate : g.isDuplicate container id = .ok false := by
        simp only [isDuplicate, hmethod]
      rw [dropDuplicate, Build.checked_of_ok hduplicate]
      rfl
  | some method =>
      have hduplicate : g.isDuplicate container id = (g.members container).map fun ids =>
          ids.contains id && g.anyAlike ids id method := by
        simp only [isDuplicate, hmethod]
      cases hids : g.members container with
      | error violation =>
          simp only [hids, Except.map] at hduplicate
          rw [dropDuplicate, Build.checked_of_error hduplicate]
          exact Build.bind_of_error (Build.read_of_error _ hids) _
      | ok ids =>
          simp only [hids, Except.map] at hduplicate
          rw [dropDuplicate, Build.checked_of_ok hduplicate]
          -- The request asks at once what the steps ask one after the other.
          refine (Build.bind_of_ok (Build.read_of_ok _ hids)).trans ?_
          cases hlisted : ids.contains id with
          | false => rfl
          | true =>
              refine (Build.bind_of_ok (Build.look_eq ..)).trans ?_
              cases halike : g.anyAlike ids id method with
              | false => rfl
              | true =>
                  have hcontainer := (members_eq_ok_iff.mp hids).1
                  have hkind := isSome_method?_iff.mp (Option.isSome_of_eq_some hmethod)
                  have hid : id.index < g.owners.size := howners ▸ index_lt_of_kind? hkind
                  refine (Build.bind_of_ok (strike_eq hcontainer id)).trans ?_
                  exact Build.bind_of_ok (disown_eq hid)

end Graph

/-- On a coherent graph the steps of a request come to the request. -/
theorem Request.stepwise_eq {g : Graph} (hg : Coherent g) (request : Request) :
    request.stepwise g = request.perform g := by
  cases request with
  | package container name =>
      cases hscope : g.packageScope container with
      | ok scope =>
          have hkind := kind?_of_packageScope hscope
          have hmade : ensureStepwise container (.package, name) g = _ :=
            ensureStepwise_of_container (isSome_key?_of_package hkind) rfl
          rw [stepwise, Build.bind_of_ok (Build.read_of_ok _ hscope), perform]
          exact Build.map_congr (hmade.trans (ensurePackage_eq hkind name).symm) _
      | error violation =>
          have hrefused : ensurePackage container name g = .error violation g :=
            Build.checked_of_error hscope
          rw [perform, Build.map_of_error hrefused, stepwise,
            Build.bind_of_error (Build.read_of_error _ hscope)]
  | klass container name =>
      exact Build.map_congr
        (ensureStepwise_eq_checked rfl fun hcontainer => ensureClass_eq hcontainer name) _
  | object container name =>
      exact Build.map_congr
        (ensureStepwise_eq_checked rfl fun hcontainer => ensureObject_eq hcontainer name) _
  | field container name | method container name | comment container text =>
      exact Build.map_congr (addStepwise_eq rfl) _
  | issueName container => exact Build.map_congr issueStepwise_eq _
  | dropDuplicate container id => exact Build.map_congr (dropStepwise_eq hg.size_owners id) _
  | _ => rfl

end DeclGraph

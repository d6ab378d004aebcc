import TetherBridge.Acp.InteractionMoves

/-!
This module contains what an agent can take from an answer: an option that does not decline was selected by a client,
and a form was filled in by a client as it asks for.
-/

namespace Acp

variable {formats : TextFormats}

namespace World

open InteractionState

/--
The request was registered, and a client has decided so about it.
-/
def Decided (world : World) (responder : Nat) (decision : String → String → Decision) : Prop :=
  ∃ registration ∈ world.registered, registration.responder = responder
    ∧ decision registration.threadId registration.requestId ∈ world.decisions

/--
What an answer says of the request that it is for.
-/
def Justified (formats : TextFormats) (world : World) (responder : Nat) : Answer → Prop
  | .permission .cancelled => ∃ request, world.requests[responder]? = some (.permission request)
  | .permission (.selected optionId) =>
    ∃ request, world.requests[responder]? = some (.permission request)
      ∧ (request.Rejects optionId
        ∨ request.Offers optionId ∧ world.Decided responder fun threadId requestId =>
            .select threadId requestId optionId)
  | .elicitation (.accept values) =>
    ∃ request schema, world.requests[responder]? = some (.elicitation request) ∧ request.mode = .form schema
      ∧ Conforms formats schema values
      ∧ world.Decided responder fun threadId requestId => .accept threadId requestId values
  | .elicitation _ => ∃ request, world.requests[responder]? = some (.elicitation request)
  | .methodNotFound _ =>
    ∃ request, world.requests[responder]? = some (.elicitation request) ∧ request.mode = .other

/--
What has happened stays so.
-/
structure Extends (world world' : World) : Prop where
  requests : ∀ (index : Nat) (request : Request), world.requests[index]? = some request →
    world'.requests[index]? = some request
  registered : ∀ registration ∈ world.registered, registration ∈ world'.registered
  decisions : ∀ decision ∈ world.decisions, decision ∈ world'.decisions

theorem Decided.extend {world world' : World} (hextends : Extends world world') {responder : Nat}
    {decision : String → String → Decision} (h : world.Decided responder decision)
    : world'.Decided responder decision := by
  rcases h with ⟨registration, hregistration, hresponder, hdecision⟩
  exact ⟨registration, hextends.registered _ hregistration, hresponder, hextends.decisions _ hdecision⟩

theorem Justified.extend {world world' : World} (hextends : Extends world world') {responder : Nat}
    {answer : Answer} (h : Justified formats world responder answer)
    : Justified formats world' responder answer := by
  cases answer with
  | permission outcome =>
    cases outcome with
    | cancelled =>
      rcases h with ⟨request, hrequest⟩
      exact ⟨request, hextends.requests _ _ hrequest⟩
    | selected optionId =>
      rcases h with ⟨request, hrequest, hrejects | ⟨hoffers, hdecided⟩⟩
      . exact ⟨request, hextends.requests _ _ hrequest, .inl hrejects⟩
      . exact ⟨request, hextends.requests _ _ hrequest, .inr ⟨hoffers, hdecided.extend hextends⟩⟩
  | elicitation action =>
    cases action with
    | accept values =>
      rcases h with ⟨request, schema, hrequest, hmode, hconforms, hdecided⟩
      exact ⟨request, schema, hextends.requests _ _ hrequest, hmode, hconforms, hdecided.extend hextends⟩
    | decline =>
      rcases h with ⟨request, hrequest⟩
      exact ⟨request, hextends.requests _ _ hrequest⟩
    | cancel =>
      rcases h with ⟨request, hrequest⟩
      exact ⟨request, hextends.requests _ _ hrequest⟩
  | methodNotFound data =>
    rcases h with ⟨request, hrequest, hmode⟩
    exact ⟨request, hextends.requests _ _ hrequest, hmode⟩

/--
The request of an entry was received and registered.
-/
def Attributed (world : World) (responder : Nat) (threadId requestId : String) : Prop :=
  ∃ registration ∈ world.registered, registration.responder = responder ∧ registration.threadId = threadId
    ∧ registration.requestId = requestId

theorem Attributed.extend {world world' : World} (hextends : Extends world world') {responder : Nat}
    {threadId requestId : String} (h : world.Attributed responder threadId requestId)
    : world'.Attributed responder threadId requestId := by
  rcases h with ⟨registration, hregistration, hrest⟩
  exact ⟨registration, hextends.registered _ hregistration, hrest⟩

end World

/--
The answers a task is to give.
-/
def Task.answers : Task → List (Nat × Answer)
  | .received responder (.answer answer) => [(responder, answer)]
  | .received _ _ => []
  | .settle settlements _ => settlements.map fun settlement => (settlement.responder, settlement.answer)
  | .resolve _ _ settlements _ => settlements.map fun settlement => (settlement.responder, settlement.answer)

namespace World

open InteractionState

/--
Every entry is for a request that was received, and every answer is justified, also those that are still to be given.
-/
structure Consented (formats : TextFormats) (world : World) : Prop where
  permissions : ∀ entry ∈ world.state.permissions,
    world.requests[entry.2.responder]? = some (.permission entry.2.request)
      ∧ world.Attributed entry.2.responder entry.2.summary.threadId entry.2.summary.requestId
  elicitations : ∀ entry ∈ world.state.elicitations,
    (∃ request, world.requests[entry.2.responder]? = some (.elicitation request)
        ∧ request.mode = .form entry.2.schema)
      ∧ world.Attributed entry.2.responder entry.2.summary.threadId entry.2.summary.requestId
  tasks : ∀ task ∈ world.tasks, ∀ answer ∈ task.answers, Justified formats world answer.1 answer.2
  answers : ∀ answer ∈ world.answers, Justified formats world answer.1 answer.2

theorem Consented.extend {world world' : World} (h : Consented formats world) (hextends : Extends world world')
    (hpermissions : world'.state.permissions ⊆ world.state.permissions)
    (helicitations : world'.state.elicitations ⊆ world.state.elicitations)
    (htasks : ∀ task ∈ world'.tasks, ∀ answer ∈ task.answers, Justified formats world' answer.1 answer.2)
    (hanswers : ∀ answer ∈ world'.answers, Justified formats world' answer.1 answer.2)
    : Consented formats world' where
  permissions entry hentry := by
    obtain ⟨hrequest, hattributed⟩ := h.permissions entry (hpermissions hentry)
    exact ⟨hextends.requests _ _ hrequest, hattributed.extend hextends⟩
  elicitations entry hentry := by
    obtain ⟨⟨request, hrequest, hmode⟩, hattributed⟩ := h.elicitations entry (helicitations hentry)
    exact ⟨⟨request, hextends.requests _ _ hrequest, hmode⟩, hattributed.extend hextends⟩
  tasks := htasks
  answers := hanswers

theorem extends_receive (world : World) (request : Request) (uuid : Uuid) (result : InteractionState × Received)
    : Extends world (world.receive request uuid result) where
  requests index found hfound := by
    change (world.requests ++ [request])[index]? = some found
    rw [List.getElem?_append_left (List.getElem?_eq_some_iff.mp hfound).1]
    exact hfound
  registered _ h := List.mem_append_left _ h
  decisions _ h := h

theorem requests_receive (world : World) (request : Request) (uuid : Uuid)
    (result : InteractionState × Received)
    : (world.receive request uuid result).requests[world.requests.length]? = some request :=
  List.getElem?_concat_length

theorem justified_refusal {world : World} {request : Request} {responder : Nat} {answer : Answer}
    (hrequest : world.requests[responder]? = some request) (h : Refuses request answer)
    : Justified formats world responder answer := by
  cases request with
  | permission request =>
    cases h
    exact ⟨request, hrequest⟩
  | elicitation request =>
    rcases h with rfl | ⟨hmode, rfl⟩
    . exact ⟨request, hrequest⟩
    . exact ⟨request, hrequest, hmode⟩

theorem Consented.receive {world : World} (h : Consented formats world) {request : Request} {uuid : Uuid}
    {result : InteractionState × Received}
    (hregisters : Registers world.state world.requests.length uuid request result)
    : Consented formats (world.receive request uuid result) := by
  have hextends := extends_receive world request uuid result
  have hrequest := requests_receive world request uuid result
  have hanswers : ∀ answer ∈ world.answers,
      Justified formats (world.receive request uuid result) answer.1 answer.2 :=
    fun answer hanswer => (h.answers answer hanswer).extend hextends
  have hold : ∀ task ∈ world.tasks, ∀ answer ∈ task.answers,
      Justified formats (world.receive request uuid result) answer.1 answer.2 :=
    fun task htask answer hanswer => (h.tasks task htask answer hanswer).extend hextends
  cases hregisters with
  | refuse request answer hrefuses =>
    refine h.extend hextends (List.Subset.refl _) (List.Subset.refl _) ?_ hanswers
    intro task htask
    rcases List.mem_append.mp htask with htask | htask
    . exact hold task htask
    . rw [List.mem_singleton.mp htask]
      intro answer' hanswer
      rw [List.mem_singleton.mp hanswer]
      exact justified_refusal hrequest hrefuses
  | permission entry hentry hcapacity =>
    refine ⟨?_, ?_, ?_, hanswers⟩
    . intro stored hstored
      rcases List.mem_assign hstored with rfl | hstored
      . refine ⟨hentry.responder ▸ hrequest, _, List.mem_append_right _ List.mem_cons_self, ?_, rfl, rfl⟩
        exact hentry.responder.symm
      . obtain ⟨hfound, hattributed⟩ := h.permissions stored hstored
        exact ⟨hextends.requests _ _ hfound, hattributed.extend hextends⟩
    . intro stored hstored
      obtain ⟨⟨form, hfound, hmode⟩, hattributed⟩ := h.elicitations stored hstored
      exact ⟨⟨form, hextends.requests _ _ hfound, hmode⟩, hattributed.extend hextends⟩
    . intro task htask
      rcases List.mem_append.mp htask with htask | htask
      . exact hold task htask
      . rw [List.mem_singleton.mp htask]
        exact fun answer hanswer => absurd hanswer List.not_mem_nil
  | elicitation request entry hentry hcapacity =>
    refine ⟨?_, ?_, ?_, hanswers⟩
    . intro stored hstored
      obtain ⟨hfound, hattributed⟩ := h.permissions stored hstored
      exact ⟨hextends.requests _ _ hfound, hattributed.extend hextends⟩
    . intro stored hstored
      rcases List.mem_assign hstored with rfl | hstored
      . refine ⟨⟨request, hentry.responder ▸ hrequest, hentry.schema⟩, _,
          List.mem_append_right _ List.mem_cons_self, ?_, rfl, rfl⟩
        exact hentry.responder.symm
      . obtain ⟨⟨form, hfound, hmode⟩, hattributed⟩ := h.elicitations stored hstored
        exact ⟨⟨form, hextends.requests _ _ hfound, hmode⟩, hattributed.extend hextends⟩
    . intro task htask
      rcases List.mem_append.mp htask with htask | htask
      . exact hold task htask
      . rw [List.mem_singleton.mp htask]
        exact fun answer hanswer => absurd hanswer List.not_mem_nil

/--
What is taken out of the registry is settled by a justified answer.
-/
theorem justified_settlements {world : World} (h : Consented formats world) {decisions : List Decision}
    {permission : PermissionEntry → Bool} {elicitation : ElicitationEntry → Bool}
    {ofPermission : PermissionEntry → Settlement} {ofElicitation : ElicitationEntry → Settlement}
    {state : InteractionState} {settlements : List Settlement}
    (hextracts : Extracts formats decisions world.state permission elicitation ofPermission ofElicitation
      (state, settlements))
    {world' : World} (hextends : Extends world world') (hdecisions : world'.decisions = decisions)
    : ∀ settlement ∈ settlements, Justified formats world' settlement.responder settlement.answer := by
  intro settlement hsettlement
  have hmem := hsettlement
  rw [show settlements = _ from hextracts.settlements] at hmem
  rw [List.mem_append, List.mem_map, List.mem_map] at hmem
  rcases hmem with ⟨entry, hentry, rfl⟩ | ⟨entry, hentry, rfl⟩
  . rw [List.mem_filter] at hentry
    obtain ⟨_, answer, _, heq, hselected⟩ := hextracts.settlesPermission entry hentry.1 hentry.2
    obtain ⟨hrequest, registration, hregistration, hresponder, hthread, hid⟩ := h.permissions entry hentry.1
    have hrequest' := hextends.requests _ _ hrequest
    rw [heq]
    cases answer with
    | cancelled => exact ⟨entry.2.request, hrequest'⟩
    | selected optionId =>
      refine ⟨entry.2.request, hrequest', ?_⟩
      rcases hselected optionId rfl with hrejects | ⟨hoffers, hdecision⟩
      . exact .inl hrejects
      . refine .inr ⟨hoffers, registration, hextends.registered _ hregistration, hresponder, ?_⟩
        rw [hthread, hid, hdecisions]
        exact hdecision
  . rw [List.mem_filter] at hentry
    obtain ⟨_, action, _, heq, haccepted⟩ := hextracts.settlesElicitation entry hentry.1 hentry.2
    obtain ⟨⟨request, hrequest, hmode⟩, registration, hregistration, hresponder, hthread, hid⟩ :=
      h.elicitations entry hentry.1
    have hrequest' := hextends.requests _ _ hrequest
    rw [heq]
    cases action with
    | accept values =>
      obtain ⟨hconforms, hdecision⟩ := haccepted values rfl
      refine ⟨request, entry.2.schema, hrequest', hmode, hconforms, registration,
        hextends.registered _ hregistration, hresponder, ?_⟩
      rw [hthread, hid, hdecisions]
      exact hdecision
    | decline => exact ⟨request, hrequest'⟩
    | cancel => exact ⟨request, hrequest'⟩

/--
A task goes on with the answers it has left.
-/
theorem Consented.advance {world world' : World} {index : Nat} {task : Task} (h : Consented formats world)
    (htask : world.tasks[index]? = some task) (hextends : Extends world world')
    (hstate : world'.state = world.state)
    (htasks : world'.tasks = world.tasks.eraseIdx index
      ∨ ∃ task', world'.tasks = world.tasks.set index task' ∧ task'.answers ⊆ task.answers)
    (hanswers : ∀ answer ∈ world'.answers, answer ∈ world.answers ∨ answer ∈ task.answers)
    : Consented formats world' := by
  have hmem := List.mem_of_getElem? htask
  refine h.extend hextends (hstate ▸ List.Subset.refl _) (hstate ▸ List.Subset.refl _) ?_ ?_
  . intro other hother answer hanswer
    rcases htasks with heq | ⟨task', heq, hsubset⟩
    . rw [heq] at hother
      exact (h.tasks other (List.mem_of_mem_eraseIdx hother) answer hanswer).extend hextends
    . rw [heq] at hother
      rcases List.mem_or_eq_of_mem_set hother with hother | rfl
      . exact (h.tasks other hother answer hanswer).extend hextends
      . exact (h.tasks task hmem answer (hsubset hanswer)).extend hextends
  . intro answer hanswer
    rcases hanswers answer hanswer with hanswer | hanswer
    . exact (h.answers answer hanswer).extend hextends
    . exact (h.tasks task hmem answer hanswer).extend hextends

theorem Extends.of_eq {world world' : World} (hrequests : world'.requests = world.requests)
    (hregistered : world'.registered = world.registered) (hdecisions : world'.decisions = world.decisions)
    : Extends world world' where
  requests _ _ h := hrequests ▸ h
  registered _ h := hregistered ▸ h
  decisions _ h := hdecisions ▸ h

theorem Consented.respond {world world' : World} {index : Nat} {succeeds : Bool} (h : Consented formats world)
    (hrespond : world.respond index succeeds = some world')
    : Consented formats world' := by
  rcases respond_eq_some hrespond with ⟨_, _, htask, rfl⟩ | ⟨settlement, settlements, onError, htask, rfl⟩
  . refine h.advance htask (.of_eq rfl rfl rfl) rfl (.inl rfl) ?_
    intro answer hanswer
    exact List.mem_append.mp hanswer
  . refine h.advance htask (.of_eq rfl rfl rfl) rfl (.inr ⟨_, rfl, List.subset_cons_self _ _⟩) ?_
    intro answer hanswer
    rcases List.mem_append.mp hanswer with hanswer | hanswer
    . exact .inl hanswer
    . rw [List.mem_singleton.mp hanswer]
      exact .inr List.mem_cons_self

theorem Consented.emit {world world' : World} {index : Nat} {session : Option SessionView}
    (h : Consented formats world) (hemit : world.emit index session = some world')
    : Consented formats world' := by
  rcases emit_eq_some hemit with ⟨_, _, _, htask, rfl⟩ | ⟨_, _, _, htask, rfl⟩ | ⟨_, _, htask, rfl⟩
    | ⟨_, _, _, _, htask, rfl⟩ | ⟨_, htask, rfl⟩
  . exact h.advance htask (.of_eq rfl rfl rfl) rfl (.inl rfl) fun _ => .inl
  . exact h.advance htask (.of_eq rfl rfl rfl) rfl (.inl rfl) fun _ => .inl
  . exact h.advance htask (.of_eq rfl rfl rfl) rfl (.inl rfl) fun _ => .inl
  . exact h.advance htask (.of_eq rfl rfl rfl) rfl (.inr ⟨_, rfl, List.Subset.refl _⟩) fun _ => .inl
  . exact h.advance htask (.of_eq rfl rfl rfl) rfl (.inl rfl) fun _ => .inl

theorem Consented.step {world world' : World} {action : Action} (hsound : world.Sound)
    (h : Consented formats world) (hstep : World.step formats world action = some world')
    : Consented formats world' := by
  cases moves_of_step hsound.keyed hsound.fit hstep with
  | receive huuid hregisters => exact h.receive hregisters
  | @finish decisions watched state settlements onError hends hdecisions =>
    obtain ⟨_, _, _, _, hextracts⟩ := hends
    have hextends : Extends world { world with
        state, tasks := world.tasks ++ [.settle settlements onError], decisions, watched } :=
      ⟨fun _ _ h => h, fun _ h => h, hdecisions⟩
    refine h.extend hextends ?_ ?_ ?_ ?_
    . rw [hextracts.permissions]
      exact List.filter_subset_self _
    . rw [hextracts.elicitations]
      exact List.filter_subset_self _
    . intro task htask
      rcases List.mem_append.mp htask with htask | htask
      . intro answer hanswer
        exact (h.tasks task htask answer hanswer).extend hextends
      . rw [List.mem_singleton.mp htask]
        intro answer hanswer
        obtain ⟨settlement, hsettlement, rfl⟩ := List.mem_map.mp hanswer
        exact justified_settlements h hextracts hextends rfl settlement hsettlement
    . intro answer hanswer
      exact (h.answers answer hanswer).extend hextends
  | idle decisions watched steers hdecisions =>
    have hextends : Extends world { world with decisions, watched, steers } :=
      ⟨fun _ _ h => h, fun _ h => h, hdecisions⟩
    refine h.extend hextends (List.Subset.refl _) (List.Subset.refl _) ?_ ?_
    . intro task htask answer hanswer
      exact (h.tasks task htask answer hanswer).extend hextends
    . intro answer hanswer
      exact (h.answers answer hanswer).extend hextends
  | @rehash permissions elicitations hpermissions helicitations =>
    have hextends : Extends world { world with state := { world.state with permissions, elicitations } } :=
      .of_eq rfl rfl rfl
    refine h.extend hextends hpermissions.subset helicitations.subset ?_ ?_
    . intro task htask answer hanswer
      exact (h.tasks task htask answer hanswer).extend hextends
    . intro answer hanswer
      exact (h.answers answer hanswer).extend hextends
  | respond haction hrespond => exact h.respond hrespond
  | emit haction hemit => exact h.emit hemit

theorem consented_init : Consented formats init where
  permissions entry hentry := absurd hentry List.not_mem_nil
  elicitations entry hentry := absurd hentry List.not_mem_nil
  tasks task htask := absurd htask List.not_mem_nil
  answers answer hanswer := absurd hanswer List.not_mem_nil

/--
No permission is granted but by a client: an option that is selected is on offer, and it declines or a client has
selected it for this request. A form is accepted only with what a client has filled in for it, which is what it asks for.
-/
theorem answers_justified {actions : List Action} {world : World}
    (hmeets : Transition.Meets (World.step formats) FreshUuid init actions)
    (hexec : Transition.exec (World.step formats) init actions = some world)
    : ∀ answer ∈ world.answers, Justified formats world answer.1 answer.2 := by
  have hinvariant : world.Sound ∧ Consented formats world :=
    Transition.exec_invariant (I := fun world => world.Sound ∧ Consented formats world)
      (fun _ _ _ h hfresh hstep => ⟨h.1.step hfresh hstep, h.2.step h.1 hstep⟩)
      ⟨sound_init, consented_init⟩ hmeets hexec
  exact hinvariant.2.answers

theorem answers_justified_granted
    : ∃ world, Transition.exec (World.step anyFormat) init grantActions = some world
        ∧ ∀ answer ∈ world.answers, Justified anyFormat world answer.1 answer.2 :=
  ⟨_, rfl, answers_justified meets_grantActions rfl⟩

end World

end Acp

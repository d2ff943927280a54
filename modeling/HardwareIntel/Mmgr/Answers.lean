import HardwareIntel.Mmgr.Requests

/-!
# What the daemon tells one client

`step_answers` says when a step of the daemon sends `ACK` to the client behind `fd`: only as the
answer to a request of this client, other than the two acknowledgements, and for
`RESOURCE_ACQUIRE` only when the client holds the resource afterwards. `step_holds` says that a
client keeps the resource until it releases it or disconnects.
-/

namespace HardwareIntel.Mmgr

/-- The two requests that are not answered when they are accepted. -/
def Request.isAcknowledgement : Request → Bool
  | .ackModemColdReset | .ackModemShutdown => true
  | _ => false

/-- The entry sends `ACK` to the client behind `fd`. -/
def Obs.acks (fd : Int) : Obs → Bool
  | .sent fd' _ ev _ _ => fd' == fd && ev == .ack
  | _ => false

/-! ## Acknowledgements sent -/

/-- Since the history `base`, `ACK` was sent to the client behind `fd` only if `G`. -/
def AcksOnly (fd : Int) (G : Prop) (base : List Obs) (m : MmgrData) : Prop :=
  ∃ new, m.log = new ++ base ∧ ∀ o ∈ new, o.acks fd = true → G

namespace AcksOnly

variable {fd : Int} {G : Prop} {base : List Obs} {env : Env} {m m' : MmgrData}

theorem refl (h : m.log = base) : AcksOnly fd G base m := ⟨[], h, by simp⟩

section

variable (h : AcksOnly fd G base m)
include h

theorem of_log_eq (hlog : m'.log = m.log) : AcksOnly fd G base m' := by
  obtain ⟨new, hnew, hall⟩ := h
  exact ⟨new, hlog.trans hnew, hall⟩

theorem mono {G' : Prop} (hG : G → G') : AcksOnly fd G' base m := by
  obtain ⟨new, hnew, hall⟩ := h
  exact ⟨new, hnew, fun o ho hacks => hG (hall o ho hacks)⟩

/-- A frame that allows `ACK` only so. -/
theorem frame {ok : Obs → Prop} (hframe : Frame ok m m') (hok : ∀ o, ok o → o.acks fd = true → G) :
    AcksOnly fd G base m' := by
  obtain ⟨new, hnew, hall⟩ := h
  obtain ⟨new', hnew', hall'⟩ := hframe.log
  refine ⟨new' ++ new, by rw [hnew', hnew, List.append_assoc], fun o ho => ?_⟩
  rcases List.mem_append.mp ho with ho | ho
  · exact hok o (hall' o ho)
  · exact hall o ho

/-- A quiet change that sends `ACK` only to clients in `R`. -/
theorem quiet {R : Int → Prop} (hquiet : Quiet R m m') (hR : R fd → G) : AcksOnly fd G base m' := by
  refine h.frame hquiet.toFrame fun o ho hacks => ?_
  cases o with
  | sent fd' answering ev data st =>
    simp only [Obs.acks, Bool.and_eq_true, beq_iff_eq] at hacks
    obtain ⟨rfl, rfl⟩ := hacks
    exact hR (ho.2 rfl)
  | _ => exact absurd hacks (by simp [Obs.acks])

/-- A quiet change that accepts nothing. -/
theorem silent (hquiet : Quiet nobody m m') : AcksOnly fd G base m' :=
  h.quiet hquiet False.elim

theorem observe {o : Obs} (ho : o.acks fd = false) :
    AcksOnly fd G base (observe o m) :=
  h.frame (@frame_observe (· = o) m o rfl) (by rintro _ rfl hacks; simp [ho] at hacks)

theorem setMmgrState {st : MmgrState} :
    AcksOnly fd G base (setMmgrState st m) :=
  h.observe (o := .setState st m.clients.hasResource) rfl

theorem informAll {ev : Event} {data : EventData} (hev : ev ≠ .ack) :
    AcksOnly fd G base (clientsInformAll ev data m) := by
  have hframe : Frame (fun o => o.acks fd = false) m (clientsInformAll ev data m) :=
    frame_clientsInformAll fun _ => by simp [Obs.acks, hev]
  exact h.frame hframe fun o ho hacks => by simp [ho] at hacks

/-- Sending something else than `ACK` to the client of the request. -/
theorem inform {ev : Event} (hev : ev ≠ .ack) :
    AcksOnly fd G base (clientInform ev m) := by
  have hframe : Frame (fun o => o.acks fd = false) m (clientInform ev m) :=
    frame_clientInform fun _ _ => by simp [Obs.acks, hev]
  exact h.frame hframe fun o ho hacks => by simp [ho] at hacks

/-- A recovery accepts nothing. -/
theorem reset (heffect : ResetEffect env m m') :
    AcksOnly fd G base m' := by
  obtain ⟨clients, -, hframe⟩ := heffect.frame
  have hclients : AcksOnly fd G base { m with clients := clients } := h.of_log_eq rfl
  refine hclients.frame hframe fun o ho hacks => ?_
  cases o with
  | sent fd' answering ev data st =>
    simp only [Obs.acks, Bool.and_eq_true, beq_iff_eq] at hacks
    simp [Obs.ofReset, hacks.2] at ho
  | _ => exact absurd hacks (by simp [Obs.acks])

/-- The configuration accepts nothing. -/
theorem configure (hstep : doConfigure env m = some m') :
    AcksOnly fd G base m' := by
  rcases doConfigure_cases hstep with hquiet | ⟨a, ha, -, rfl⟩
  · exact h.silent hquiet
  · have hup : AcksOnly fd G base (clientsInformAll .eventModemUp .null a) :=
      (h.silent ha).informAll (by decide)
    exact hup.of_log_eq rfl

end

end AcksOnly

/-! ## The resource -/

section Resource

variable {fd who : Int} {env : Env} {m m' : MmgrData} {c : Client}

/-- A recovery takes the resource from nobody. -/
theorem ResetEffect.holds (h : ResetEffect env m m') (hheld : m.clients.holds fd = true) :
    m'.clients.holds fd = true := by
  obtain ⟨clients, hclients, hframe⟩ := h.frame
  rw [hframe.clients]
  rcases hclients with rfl | rfl
  · exact hheld
  · exact ClientList.holds_resetAck hheld

/-- A configuration leaves the clients alone. -/
theorem doConfigure_clients (h : doConfigure env m = some m') : m'.clients = m.clients := by
  rcases doConfigure_cases h with hquiet | ⟨a, ha, -, rfl⟩
  · exact hquiet.clients
  · have hup : Frame (fun _ => True) a (clientsInformAll .eventModemUp .null a) :=
      frame_clientsInformAll fun _ => trivial
    exact hup.clients.trans ha.clients

/-- Switching the modem on takes the resource from nobody. -/
theorem holds_resourceAcquireWakeupModem (h : resourceAcquireWakeupModem env m = some m')
    (hheld : (onClient (Client.unsetRequest .resourceReleased) m).clients.holds fd = true) :
    m'.clients.holds fd = true := by
  obtain ⟨a, ha, hrest⟩ := resourceAcquireWakeupModem_cases h
  rw [← ha.clients] at hheld
  rcases hrest with rfl | rfl | ⟨-, -, heffect⟩
  · exact hheld
  · have hwake : Frame (fun _ => True) a (wakeupModem env a) :=
      frame_wakeupModem (fun _ => trivial) (fun _ => trivial) trivial
    rw [hwake.clients]
    exact hheld
  · exact heffect.holds hheld

/-- A request takes the resource from its client at most, and only if it releases it. -/
theorem HandlerEffect.holds {st : MmgrState} {req : Request}
    (hfind : m.clients.find who = some m.request.client)
    (hget : m.clients.get? m.request.client = some c) (h : HandlerEffect env st m req m')
    (hkeep : req = .resourceRelease → who ≠ fd) (hheld : m.clients.holds fd = true) :
    m'.clients.holds fd = true := by
  have hset : ∀ flag, (flag = .resourceReleased → who ≠ fd) →
      (onClient (Client.setRequest flag) m).clients.holds fd = true := by
    intro flag hflag
    refine ClientList.holds_update (fun _ => rfl) (fun hown d hd => ?_) hheld
    rw [Client.setRequest_cnx, hd, Bool.or_false, decide_eq_false_iff_not]
    intro hreleased
    -- an entry has only one descriptor
    exact hflag hreleased.symm
      ((ClientList.fd_of_find hfind hget).symm.trans (ClientList.fd_of_find hown hget))
  have hunset : (onClient (Client.unsetRequest .resourceReleased) m).clients.holds fd = true :=
    ClientList.holds_update (fun _ => rfl) (fun _ d _ => by simp) hheld
  cases h with
  | quiet hquiet => rw [hquiet.clients]; exact hheld
  | setName hstep =>
    rw [(quiet_requestSetName hstep).clients]
    exact ClientList.holds_update (fun _ => rfl) (fun _ d hd => by simp [hd]) hheld
  | setEvents =>
    rcases @requestSetEvents_cases m with hquiet | ⟨n, a, ha, -, heq⟩
    · rw [hquiet.clients]
      exact hheld
    · have hfilter : (onClient (Client.setFilter n) m).clients.holds fd = true :=
        ClientList.holds_update (fun _ => rfl) (fun _ d hd => by simp [hd]) hheld
      rw [heq]
      exact ha.clients ▸ hfilter
  | wakeup _ hstep => exact holds_resourceAcquireWakeupModem hstep hunset
  | acquire _ => rw [quiet_resourceAcquire.clients]; exact hunset
  | releaseOff _ =>
    exact hset _ fun _ => hkeep rfl
  | release _ =>
    have hreleased := hset .resourceReleased fun _ => hkeep rfl
    rcases @requestResourceRelease_cases env m with hquiet | ⟨-, -, a, ha, heq⟩
    · rw [hquiet.clients]
      exact hreleased
    · rw [heq]
      exact ha.clients ▸ hreleased
  | forceShutdown _ =>
    obtain ⟨a, ha, heq⟩ := @requestForceModemShutdown_cases env m
    exact ha.clients ▸ hheld
  | ackCold _ =>
    have hack := hset .coldReset fun hflag => absurd hflag (by decide)
    rcases @requestAckColdReset_cases env m with heq | ⟨-, -, hquiet⟩
    · rw [heq]
      exact hack
    · rw [hquiet.clients]
      exact hack
  | ackShutdown _ =>
    have hack := hset .modemShutdown fun hflag => absurd hflag (by decide)
    rcases @requestAckModemShutdown_cases m with heq | ⟨-, -, hquiet⟩
    · rw [heq]
      exact hack
    · rw [hquiet.clients]
      exact hack
  | fakeUp _ =>
    have hup : Frame (fun _ => True) m (requestFakeUp m) :=
      (frame_clientInform fun _ _ => trivial).trans (frame_clientsInformAll fun _ => trivial)
    exact hheld

end Resource

/-! ## Requests that are accepted -/

section Requests

variable {fd who : Int} {G : Prop} {base : List Obs} {env : Env} {m m' : MmgrData} {c : Client}
  {st : MmgrState} {req : Request}

/-- A routine request is neither an acknowledgement nor for the resource. -/
theorem Request.of_routine (h : req.routine = true) :
    req.isAcknowledgement = false ∧ req ≠ .resourceAcquire := by
  cases req <;> first | exact ⟨rfl, by decide⟩ | exact absurd h (by decide)

/-- The state of the daemon is never notified by `ACK`. -/
theorem MmgrState.notification_ne_ack : st.notification ≠ .ack := by
  cases st <;> decide

/-- A request is accepted only if it is of the client, not an acknowledgement, and gives the
client the resource it asks for. -/
theorem AcksOnly.request (h : AcksOnly fd G base m)
    (hfind : m.clients.find who = some m.request.client)
    (hget : m.clients.get? m.request.client = some c) (heffect : HandlerEffect env st m req m')
    (hG : who = fd → req.isAcknowledgement = false →
      (req = .resourceAcquire → m'.clients.holds fd = true) → G) : AcksOnly fd G base m' := by
  have hwho : m.requester fd → who = fd := by
    rintro ⟨d, hd, rfl⟩
    exact (ClientList.fd_of_find hfind hd).symm
  have hclient : ∀ f, AcksOnly fd G base (onClient f m) := fun f => h.of_log_eq rfl
  have hacquired : who = fd →
      (onClient (Client.unsetRequest .resourceReleased) m).clients.holds fd = true := by
    rintro rfl
    exact ClientList.holds_update_self (fun _ => rfl) (fun _ => by simp) hfind hget
  cases heffect with
  | quiet hquiet =>
    refine h.quiet hquiet fun hacc => ?_
    obtain ⟨hack, hne⟩ := Request.of_routine hacc.1
    exact hG (hwho hacc.2) hack fun heq => absurd heq hne
  | setName hstep =>
    exact (hclient _).quiet (quiet_requestSetName hstep) fun hreq =>
      hG (hwho hreq) rfl fun heq => absurd heq (by decide)
  | setEvents =>
    rcases @requestSetEvents_cases m with hquiet | ⟨n, a, ha, -, heq⟩
    · exact h.quiet hquiet fun hreq => hG (hwho hreq) rfl fun heq => absurd heq (by decide)
    · rw [heq]
      refine AcksOnly.inform ?_ MmgrState.notification_ne_ack
      exact (hclient _).quiet ha fun hreq => hG (hwho hreq) rfl fun heq => absurd heq (by decide)
  | wakeup _ hstep =>
    have hheld : who = fd → m'.clients.holds fd = true := fun hown =>
      holds_resourceAcquireWakeupModem hstep (hacquired hown)
    obtain ⟨a, ha, hrest⟩ := resourceAcquireWakeupModem_cases hstep
    have hacks : AcksOnly fd G base a := (hclient _).quiet ha fun hreq =>
      hG (hwho hreq) rfl fun _ => hheld (hwho hreq)
    rcases hrest with rfl | rfl | ⟨-, -, hreset⟩
    · exact hacks
    · have hwake : Frame (fun o => o.acks fd = false) a (wakeupModem env a) :=
        frame_wakeupModem (fun _ => rfl) (fun _ => rfl) rfl
      exact hacks.frame hwake fun o ho hack => by simp [ho] at hack
    · exact hacks.reset hreset
  | acquire _ =>
    refine (hclient _).quiet quiet_resourceAcquire fun hreq => hG (hwho hreq) rfl fun _ => ?_
    exact hacquired (hwho hreq)
  | releaseOff _ =>
    exact (hclient _).quiet quiet_requestResourceReleaseMdmOff fun hreq =>
      hG (hwho hreq) rfl fun heq => absurd heq (by decide)
  | release _ =>
    rcases @requestResourceRelease_cases env m with hquiet | ⟨-, -, a, ha, heq⟩
    · exact (hclient _).quiet hquiet fun hreq =>
        hG (hwho hreq) rfl fun heq => absurd heq (by decide)
    · rw [heq]
      refine AcksOnly.setMmgrState ((hclient _).quiet ha fun hreq => ?_)
      exact hG (hwho hreq) rfl fun heq => absurd heq (by decide)
  | forceShutdown _ =>
    obtain ⟨a, ha, heq⟩ := @requestForceModemShutdown_cases env m
    rw [heq]
    refine AcksOnly.setMmgrState (h.quiet ha fun hreq => ?_)
    exact hG (hwho hreq) rfl fun heq => absurd heq (by decide)
  | ackCold _ =>
    rcases @requestAckColdReset_cases env m with heq | ⟨-, -, hquiet⟩
    · rw [heq]
      exact hclient _
    · exact AcksOnly.silent ((hclient _).observe rfl) hquiet
  | ackShutdown _ =>
    rcases @requestAckModemShutdown_cases m with heq | ⟨-, -, hquiet⟩
    · rw [heq]
      exact hclient _
    · have hconcluded : AcksOnly fd G base (concluded .notifyModemShutdown
          (acknowledged .modemShutdown m)) := (hclient _).observe rfl
      refine AcksOnly.silent ?_ hquiet
      exact hconcluded.of_log_eq rfl
  | fakeUp _ =>
    have hacks : AcksOnly fd G base (clientInform .ack m) := h.quiet quiet_clientAck fun hreq =>
      hG (hwho hreq) rfl fun heq => absurd heq (by decide)
    exact hacks.informAll (by decide)

end Requests

/-! ## Steps -/

section Steps

variable {fd : Int} {m m' : MmgrData} {x : Input}

/-- The input is not the end of the connection with the client behind `fd`: what this client sends
is a request. -/
def Input.Attached (fd : Int) (x : Input) : Prop := x.sender = some fd → x.request.isSome = true

/-- The input is a request of the client behind `fd` that may be accepted with `ACK`, and the
client holds the resource in `m'` if it asks for it. -/
def Accepts (fd : Int) (x : Input) (m' : MmgrData) : Prop :=
  x.sender = some fd ∧ ∃ req, x.request = some req ∧ req.isAcknowledgement = false ∧
    (req = .resourceAcquire → m'.clients.holds fd = true)

/-- Since the history `base`, `ACK` was sent only as `Accepts` allows it. -/
def Answers (fd : Int) (x : Input) (base : List Obs) (m' : MmgrData) : Prop :=
  AcksOnly fd (Accepts fd x m') base m'

/-- What each kind of step has to do with the answers to a client. -/
theorem answersRule {base : List Obs} :
    StepRule (fun _ y => y = x ∧ y.Attached fd) (fun m => m.log = base) (Answers fd x base) where
  phase h := h
  quiet h _ hquiet := AcksOnly.silent (.refl h) hquiet
  configure h _ _ _ hquiet _ _ hstep := AcksOnly.configure (AcksOnly.silent (.refl h) hquiet) hstep
  startShutdown {m env} h _ _ := by
    have hacks : ∀ G, AcksOnly fd G base (setCliReq ({ · with off := false })
        { m with clients := clientsResetAckShtdwn m.clients }) := fun G => .refl h
    unfold Mmgr.startShutdown
    dsimp only
    split
    · exact AcksOnly.setMmgrState ((hacks _).of_log_eq rfl)
    · exact hacks _
  resetModem h _ _ _ hstep :=
    (AcksOnly.reset (.refl h) (resetEffect_resetModem hstep)).of_log_eq rfl
  shutdownTimeout h _ _ _ hquiet := (AcksOnly.silent (.refl h) hquiet).of_log_eq rfl
  connect h _ _ _ := AcksOnly.observe (.refl h) rfl
  request {m m' env who i id ts data c req} h hx hoff hreq hfind hget hreg heffect := by
    have hreceived : AcksOnly fd (Accepts fd x m') base (received i c req ts data m) :=
      AcksOnly.observe (.refl h) rfl
    refine hreceived.request hfind hget heffect fun hwho hack hheld => ?_
    obtain ⟨rfl, -⟩ := hx
    exact ⟨congrArg some hwho, req, hreq, hack, hheld⟩
  disconnect {m m' env who i c} h hx hoff hfind hget heffect := by
    have hne : who ≠ fd := by
      rintro rfl
      exact absurd (hx.2 rfl) (by simp [Input.request])
    have hbefore : AcksOnly fd False base { m with request := ⟨i, .resourceRelease, 0, []⟩ } :=
      .refl h
    have hacks : AcksOnly fd False base m' :=
      hbefore.request hfind hget heffect fun hwho => absurd hwho hne
    exact (hacks.mono False.elim).of_log_eq rfl

/-- A client keeps the resource, unless it releases it or disconnects. -/
theorem holdsRule :
    StepRule (fun _ x => x.Attached fd ∧ (x.sender = some fd → x.request ≠ some .resourceRelease))
      (fun m => m.clients.holds fd = true) (fun m => m.clients.holds fd = true) where
  phase h := h
  quiet h _ hquiet := hquiet.clients ▸ h
  configure h _ _ _ hquiet _ _ hstep := by
    rw [doConfigure_clients hstep, hquiet.clients]
    exact h
  startShutdown {m env} h _ _ := by
    unfold Mmgr.startShutdown
    dsimp only
    split
    · exact ClientList.holds_resetAck h
    · exact ClientList.holds_resetAck h
  resetModem h _ _ _ hstep := (resetEffect_resetModem hstep).holds h
  shutdownTimeout h _ _ _ hquiet := hquiet.clients ▸ h
  connect {m fd' clients} h _ hnew hadd := by
    obtain ⟨c, hc, -⟩ := ClientList.holds_iff.mp h
    obtain ⟨i, -, hget⟩ := Option.bind_eq_some_iff.mp hc
    have hne : fd' ≠ fd := fun heq =>
      hnew c (ClientList.mem_of_get? hget) ((ClientList.fd_of_entry hc).1.trans heq.symm)
    exact ClientList.holds_add hne hadd h
  request {m m' env who i id ts data c req} h hC hoff hreq hfind hget hreg heffect := by
    refine heffect.holds (m := received i c req ts data m) hfind hget ?_ h
    rintro rfl rfl
    exact hC.2 rfl hreq
  disconnect {m m' env who i c} h hC hoff hfind hget heffect := by
    have hne : who ≠ fd := by
      rintro rfl
      exact absurd (hC.1 rfl) (by simp [Input.request])
    exact ClientList.holds_remove hne (heffect.holds hfind hget (fun _ => hne) h)

/-- A step sends `ACK` to a client only to accept a request of this client. -/
theorem step_answers (hphase : OffHandled m) (hattached : x.Attached fd)
    (h : step m x = some m') : Answers fd x m.log m' :=
  answersRule.step rfl hphase ⟨rfl, hattached⟩ h

/-- A client holds the resource until it releases it or disconnects. -/
theorem step_holds (hphase : OffHandled m) (hattached : x.Attached fd)
    (hkeep : x.sender = some fd → x.request ≠ some .resourceRelease)
    (hheld : m.clients.holds fd = true) (h : step m x = some m') : m'.clients.holds fd = true :=
  holdsRule.step hheld hphase ⟨hattached, hkeep⟩ h

end Steps

end HardwareIntel.Mmgr

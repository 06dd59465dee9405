import KalshiAgent.Kalshi.WebSocket

/-! The subscriptions of the WebSocket client. Other tasks queue them at any `await`, also while
`_send_subscribe` is going through the list, and every connection sends them anew. -/

namespace KalshiAgent
open Execution

structure Command where
  id : ℕ
  params : Json

inductive WireEvent
  | queued (params : Json)
  | opened
  -- handed to `ws.send`
  | command (cmd : Command)
  | frame

structure Subscriber where
  ws : KalshiWebSocket
  stop : Bool
  subscriptions : List Json
  cmdId : ℕ
  -- where the iterator of `_send_subscribe` is
  position : ℕ
  -- ghost state, the oldest first
  wire : List WireEvent

inductive SubscriberStep
  | subscribe (channel : String) (params : List (String × Json))
  | sent
  -- any other step of `run`
  | loop (event : LoopEvent) (now : ℚ)
  | setStop

namespace Subscriber

def init (now : ℚ) : Subscriber := ⟨.init now, false, [], 0, 0, []⟩

def subscribe (s : Subscriber) (channel : String) (params : List (String × Json)) : Subscriber :=
  let params := .obj (("channel", .str channel) :: params)
  { s with subscriptions := s.subscriptions ++ [params], wire := s.wire ++ [.queued params] }

/-- The `for` of `_send_subscribe` on to its next `await`, and past its end to the first frame. The
iterator looks at the list as it is now. -/
def advance (handlers : List String) (now : ℚ) (s : Subscriber) : Option Subscriber :=
  match s.subscriptions[s.position]? with
  | some params =>
    some { s with
      cmdId := s.cmdId + 1
      position := s.position + 1
      wire := s.wire ++ [.command ⟨s.cmdId + 1, params⟩] }
  | none => (loopStep handlers s.stop now s.ws .subscribed).map fun (ws, _) => { s with ws }

def follow (handlers : List String) (now : ℚ) (s : Subscriber) :
    KalshiWebSocket × Option LinkEvent → Option Subscriber
  | (ws, some .opened) =>
    advance handlers now { s with ws, position := 0, wire := s.wire ++ [.opened] }
  | (ws, some .message) => some { s with ws, wire := s.wire ++ [.frame] }
  | (ws, _) => some { s with ws }

end Subscriber

def subscriberStep (handlers : List String) (s : Subscriber) : SubscriberStep → Option Subscriber
  | .subscribe channel params => some (s.subscribe channel params)
  | .setStop => some { s with stop := true }
  | .sent =>
    if s.ws.phase = .subscribing then s.advance handlers s.ws.lastMessageAt else none
  -- the end of the subscriptions, which the last `sent` leads to
  | .loop .subscribed _ => none
  | .loop event now => (loopStep handlers s.stop now s.ws event).bind (s.follow handlers now)

def queuedOf (wire : List WireEvent) : List Json :=
  wire.filterMap fun
    | .queued params => some params
    | _ => none

def commandsOf (wire : List WireEvent) : List Command :=
  wire.filterMap fun
    | .command cmd => some cmd
    | _ => none

/-- What a connection's peer can count on. -/
structure Replayed (wire : List WireEvent) : Prop where
  -- over all connections
  ids : (commandsOf wire).map Command.id = List.range' 1 (commandsOf wire).length
  -- each at most once, in the order of the queue
  inOrder : ∀ before during after, wire = before ++ .opened :: (during ++ after) →
    .opened ∉ during → (commandsOf during).map Command.params <+: queuedOf (before ++ during)
  -- all that the connection has found in the queue, before the first frame is read
  complete : ∀ before during after, wire = before ++ .opened :: (during ++ .frame :: after) →
    .opened ∉ during → queuedOf before <+: (commandsOf during).map Command.params
  -- what is queued later waits for the next connection
  quiet : ∀ before during cmd after, wire = before ++ .frame :: (during ++ .command cmd :: after) →
    .opened ∈ during

/-- The connection that is open, or was last: how many subscriptions are due on it and how many
commands it has been sent. -/
structure Link where
  due : ℕ
  sent : ℕ
  reading : Bool

structure Delivery where
  queued : List Json
  lastId : ℕ
  link : Option Link

def Delivery.start : Delivery := ⟨[], 0, none⟩

open Classical in
noncomputable def Delivery.step (d : Delivery) : WireEvent → Option Delivery
  | .queued params => some { d with queued := d.queued ++ [params] }
  | .opened => some { d with link := some ⟨d.queued.length, 0, false⟩ }
  | .command cmd =>
    match d.link with
    | some ⟨due, sent, false⟩ =>
      if cmd.id = d.lastId + 1 ∧ some cmd.params = d.queued[sent]? then
        some { d with lastId := d.lastId + 1, link := some ⟨due, sent + 1, false⟩ }
      else none
    | _ => none
  | .frame =>
    match d.link with
    | some ⟨due, sent, _⟩ =>
      if due ≤ sent then some { d with link := some ⟨due, sent, true⟩ } else none
    | none => none

section Protocol
variable {d d' : Delivery} {event : WireEvent} {wire : List WireEvent}

theorem deliver_command_eq_some {cmd : Command} (h : Delivery.step d (.command cmd) = some d') :
    ∃ due sent, d.link = some ⟨due, sent, false⟩ ∧ cmd.id = d.lastId + 1 ∧
      d.queued[sent]? = some cmd.params ∧
      d' = { d with lastId := d.lastId + 1, link := some ⟨due, sent + 1, false⟩ } := by
  simp only [Delivery.step] at h
  split at h
  case h_1 due sent hlink =>
    split_ifs at h with hcmd
    cases h
    exact ⟨due, sent, hlink, hcmd.1, hcmd.2.symm, rfl⟩
  case h_2 => exact absurd h.symm (Option.some_ne_none _)

theorem deliver_frame_eq_some (h : Delivery.step d .frame = some d') :
    ∃ due sent reading, d.link = some ⟨due, sent, reading⟩ ∧ due ≤ sent ∧
      d' = { d with link := some ⟨due, sent, true⟩ } := by
  simp only [Delivery.step] at h
  split at h
  case h_1 due sent reading hlink =>
    split_ifs at h with hdue
    cases h
    exact ⟨due, sent, reading, hlink, hdue, rfl⟩
  case h_2 => exact absurd h.symm (Option.some_ne_none _)

theorem deliver_queued (h : exec Delivery.step d wire = some d') :
    d'.queued = d.queued ++ queuedOf wire := by
  induction wire generalizing d with
  | nil =>
    cases h
    exact (List.append_nil _).symm
  | cons event wire ih =>
    obtain ⟨d₁, hevent, hrest⟩ := exec_cons_eq_some.mp h
    rw [ih hrest]
    cases event with
    | queued params =>
      cases hevent
      exact List.append_assoc d.queued [params] (queuedOf wire)
    | opened =>
      cases hevent
      rfl
    | command cmd =>
      obtain ⟨_, _, _, _, _, rfl⟩ := deliver_command_eq_some hevent
      rfl
    | frame =>
      obtain ⟨_, _, _, _, _, rfl⟩ := deliver_frame_eq_some hevent
      rfl

theorem deliver_ids (h : exec Delivery.step d wire = some d') :
    (commandsOf wire).map Command.id = List.range' (d.lastId + 1) (commandsOf wire).length := by
  induction wire generalizing d with
  | nil => rfl
  | cons event wire ih =>
    obtain ⟨d₁, hevent, hrest⟩ := exec_cons_eq_some.mp h
    have hids := ih hrest
    cases event with
    | queued params =>
      cases hevent
      exact hids
    | opened =>
      cases hevent
      exact hids
    | command cmd =>
      obtain ⟨_, _, _, hid, _, rfl⟩ := deliver_command_eq_some hevent
      have hcons : commandsOf (.command cmd :: wire) = cmd :: commandsOf wire := rfl
      rw [hcons, List.map_cons, hids, hid, List.length_cons, List.range'_succ]
    | frame =>
      obtain ⟨_, _, _, _, _, rfl⟩ := deliver_frame_eq_some hevent
      exact hids

/-- What passes on one connection: the commands are the next of the queue, and no more of them come
once a frame has been read. -/
theorem deliver_connection {due sent : ℕ} {reading : Bool} (hlink : d.link = some ⟨due, sent, reading⟩)
    (hsame : .opened ∉ wire) (h : exec Delivery.step d wire = some d') :
    (commandsOf wire).map Command.params =
        (d'.queued.drop sent).take (commandsOf wire).length ∧
      ∃ reading', d'.link = some ⟨due, sent + (commandsOf wire).length, reading'⟩ ∧
        (reading = true → reading' = true) := by
  induction wire generalizing d sent reading with
  | nil =>
    cases h
    exact ⟨rfl, reading, hlink, id⟩
  | cons event wire ih =>
    obtain ⟨d₁, hevent, hrest⟩ := exec_cons_eq_some.mp h
    have hlater : .opened ∉ wire := fun hmem => hsame (List.mem_cons_of_mem _ hmem)
    cases event with
    | queued params =>
      cases hevent
      exact ih (d := { d with queued := d.queued ++ [params] }) hlink hlater hrest
    | opened => exact absurd List.mem_cons_self hsame
    | command cmd =>
      obtain ⟨due, sent, hlink', _, hparams, rfl⟩ := deliver_command_eq_some hevent
      cases hlink.symm.trans hlink'
      obtain ⟨hcommands, reading', hend, _⟩ := ih rfl hlater hrest
      have hcons : commandsOf (.command cmd :: wire) = cmd :: commandsOf wire := rfl
      have hnext : d'.queued[sent]? = some cmd.params := by
        obtain ⟨hlt, _⟩ := List.getElem?_eq_some_iff.mp hparams
        rw [deliver_queued hrest, List.getElem?_append_left hlt]
        exact hparams
      obtain ⟨hlt, hget⟩ := List.getElem?_eq_some_iff.mp hnext
      rw [hcons, List.map_cons, hcommands, List.length_cons]
      refine ⟨?_, reading', ?_, fun h => absurd h Bool.false_ne_true⟩
      · rw [List.drop_eq_getElem_cons hlt, hget, List.take_succ_cons]
      · rw [hend, Nat.add_right_comm, Nat.add_assoc]
    | frame =>
      obtain ⟨due, sent, _, hlink', _, rfl⟩ := deliver_frame_eq_some hevent
      cases hlink.symm.trans hlink'
      obtain ⟨hcommands, reading', hend, hreading⟩ := ih rfl hlater hrest
      exact ⟨hcommands, reading', hend, fun _ => hreading rfl⟩

theorem queuedOf_append (before during : List WireEvent) :
    queuedOf (before ++ during) = queuedOf before ++ queuedOf during :=
  List.filterMap_append

theorem replayed_of_deliver (h : exec Delivery.step .start wire = some d) : Replayed wire := by
  constructor
  · exact deliver_ids h
  · intro before during after hwire hsame
    obtain ⟨d₀, hbefore, hrest⟩ := exec_append_eq_some.mp (hwire ▸ h)
    obtain ⟨d₁, hopened, hrest⟩ := exec_cons_eq_some.mp hrest
    obtain ⟨d₂, hduring, _⟩ := exec_append_eq_some.mp hrest
    cases hopened
    have hcommands := (deliver_connection rfl hsame hduring).1
    have hqueued : d₂.queued = queuedOf (before ++ during) := by
      rw [deliver_queued hduring, queuedOf_append]
      exact congrArg (· ++ queuedOf during) (deliver_queued hbefore)
    rw [hcommands, hqueued]
    exact List.take_prefix _ _
  · intro before during after hwire hsame
    obtain ⟨d₀, hbefore, hrest⟩ := exec_append_eq_some.mp (hwire ▸ h)
    obtain ⟨d₁, hopened, hrest⟩ := exec_cons_eq_some.mp hrest
    obtain ⟨d₂, hduring, hrest⟩ := exec_append_eq_some.mp hrest
    obtain ⟨d₃, hframe, _⟩ := exec_cons_eq_some.mp hrest
    cases hopened
    obtain ⟨hcommands, _, hlink, _⟩ := deliver_connection rfl hsame hduring
    obtain ⟨_, _, _, hlink', hdue, _⟩ := deliver_frame_eq_some hframe
    cases hlink.symm.trans hlink'
    rw [Nat.zero_add] at hdue
    have hfirst : d₀.queued = queuedOf before := deliver_queued hbefore
    have hqueued : d₂.queued = queuedOf before ++ queuedOf during := by
      rw [deliver_queued hduring]
      exact congrArg (· ++ queuedOf during) hfirst
    rw [hfirst] at hdue
    rw [hcommands, hqueued, List.drop_zero, List.take_append, List.take_of_length_le hdue]
    exact List.prefix_append _ _
  · intro before during cmd after hwire
    by_contra hsame
    obtain ⟨d₀, _, hrest⟩ := exec_append_eq_some.mp (hwire ▸ h)
    obtain ⟨d₁, hframe, hrest⟩ := exec_cons_eq_some.mp hrest
    obtain ⟨d₂, hduring, hrest⟩ := exec_append_eq_some.mp hrest
    obtain ⟨d₃, hcommand, _⟩ := exec_cons_eq_some.mp hrest
    obtain ⟨_, _, _, _, _, rfl⟩ := deliver_frame_eq_some hframe
    obtain ⟨_, reading, hlink, hreading⟩ := deliver_connection rfl hsame hduring
    obtain ⟨_, _, hlink', _⟩ := deliver_command_eq_some hcommand
    cases hlink.symm.trans hlink'
    exact absurd (hreading rfl) Bool.false_ne_true

end Protocol

def WsPhase.reads : WsPhase → Bool
  | .receiving | .handling => true
  | _ => false

structure Delivering (s : Subscriber) (d : Delivery) : Prop where
  passed : exec Delivery.step .start s.wire = some d
  queued : d.queued = s.subscriptions
  lastId : d.lastId = s.cmdId
  subscribing : s.ws.phase = .subscribing →
    ∃ due, d.link = some ⟨due, s.position, false⟩ ∧ due ≤ s.subscriptions.length
  reading : s.ws.phase.reads = true →
    ∃ due sent reading, d.link = some ⟨due, sent, reading⟩ ∧ due ≤ sent

section Client
open KalshiWebSocket
variable {handlers : List String} {stop : Bool} {now : ℚ} {ws ws' : KalshiWebSocket}
  {event : LoopEvent} {met : Option LinkEvent} {s s' : Subscriber} {d : Delivery}

theorem loopHead_phase (stop : Bool) (ws : KalshiWebSocket) :
    (ws.loopHead stop).phase ≠ .subscribing ∧ (ws.loopHead stop).phase.reads = false := by
  unfold loopHead
  split
  · exact ⟨nofun, rfl⟩
  · exact ⟨nofun, rfl⟩

theorem dispatch_phase (handlers : List String) (stop : Bool) (raw : RawFrame) :
    dispatch handlers stop raw ≠ .subscribing := by
  unfold dispatch nextMessage
  split
  · exact nofun
  · exact nofun
  · split
    · exact nofun
    · exact nofun
    · split <;> exact nofun

theorem loopStep_phase (h : loopStep handlers stop now ws event = some (ws', met)) :
    (met = some .opened ∧ ws'.phase = .subscribing) ∨
      (met = some .message ∧ ws.phase.reads = true ∧ ws'.phase ≠ .subscribing) ∨
      (event = .subscribed ∧ ws'.phase = .receiving) ∨
      (met ≠ some .opened ∧ met ≠ some .message ∧ ws'.phase ≠ .subscribing ∧
        (ws'.phase.reads = true → ws.phase.reads = true)) := by
  unfold loopStep at h
  split at h
  case h_1 =>
    cases h
    exact .inl ⟨rfl, rfl⟩
  case h_3 =>
    cases h
    exact .inr (.inr (.inl ⟨rfl, rfl⟩))
  case h_5 raw hphase =>
    cases h
    exact .inr (.inl ⟨rfl, congrArg WsPhase.reads hphase, dispatch_phase _ _ _⟩)
  case h_8 hphase =>
    cases h
    have hnext : nextMessage stop ≠ .subscribing := by
      unfold nextMessage
      split <;> exact nofun
    exact .inr (.inr (.inr ⟨nofun, nofun, hnext, fun _ => congrArg WsPhase.reads hphase⟩))
  case h_9 bodyRaised raised jitter hphase =>
    split at h
    · cases h
      exact .inr (.inr (.inr ⟨nofun, nofun, nofun, fun hreads => absurd hreads Bool.false_ne_true⟩))
    · cases h
      obtain ⟨hphase, hreads⟩ := loopHead_phase stop ws
      exact .inr (.inr (.inr ⟨nofun, nofun, hphase,
        fun h => absurd (hreads.symm.trans h) Bool.false_ne_true⟩))
  case h_10 wakeAt hphase =>
    split_ifs at h
    cases h
    obtain ⟨hphase, hreads⟩ := loopHead_phase stop ws
    exact .inr (.inr (.inr ⟨nofun, nofun, hphase,
      fun h => absurd (hreads.symm.trans h) Bool.false_ne_true⟩))
  case h_11 => exact absurd h.symm (Option.some_ne_none _)
  -- the body is left, or the connection refused
  all_goals
    cases h
    exact .inr (.inr (.inr ⟨nofun, nofun, nofun, fun hreads => absurd hreads Bool.false_ne_true⟩))

theorem Delivering.init (now : ℚ) : Delivering (.init now) .start := by
  refine ⟨rfl, rfl, rfl, ?_, ?_⟩
  · exact nofun
  · exact fun hreads => absurd hreads Bool.false_ne_true

theorem Delivering.subscribe (hI : Delivering s d) (channel : String) (params : List (String × Json)) :
    ∃ d', Delivering (s.subscribe channel params) d' := by
  refine ⟨{ d with queued := d.queued ++ [.obj (("channel", .str channel) :: params)] }, ?_, ?_,
    hI.lastId, ?_, hI.reading⟩
  · exact exec_append_eq_some.mpr ⟨d, hI.passed, rfl⟩
  · exact congrArg (· ++ _) hI.queued
  · intro hphase
    obtain ⟨due, hlink, hdue⟩ := hI.subscribing hphase
    refine ⟨due, hlink, hdue.trans ?_⟩
    dsimp only [Subscriber.subscribe]
    rw [List.length_append]
    exact Nat.le_add_right _ _

theorem Delivering.advance (hI : Delivering s d) (hphase : s.ws.phase = .subscribing)
    (h : s.advance handlers now = some s') : ∃ d', Delivering s' d' := by
  obtain ⟨due, hlink, hdue⟩ := hI.subscribing hphase
  unfold Subscriber.advance at h
  split at h
  case h_1 params hnext =>
    cases h
    have hcommand : Delivery.step d (.command ⟨s.cmdId + 1, params⟩) =
        some { d with lastId := d.lastId + 1, link := some ⟨due, s.position + 1, false⟩ } := by
      rw [← hI.queued] at hnext
      simp only [Delivery.step]
      rw [hlink]
      exact if_pos ⟨congrArg (· + 1) hI.lastId.symm, hnext.symm⟩
    refine ⟨{ d with lastId := d.lastId + 1, link := some ⟨due, s.position + 1, false⟩ }, ?_, hI.queued,
      congrArg (· + 1) hI.lastId, fun _ => ⟨due, rfl, hdue⟩, ?_⟩
    · exact exec_append_eq_some.mpr ⟨d, hI.passed, exec_cons_eq_some.mpr ⟨_, hcommand, rfl⟩⟩
    · intro hreads
      rw [hphase] at hreads
      exact absurd hreads Bool.false_ne_true
  case h_2 hend =>
    obtain ⟨⟨ws, met⟩, hloop, rfl⟩ := Option.map_eq_some_iff.mp h
    have hsent : s.subscriptions.length ≤ s.position := List.getElem?_eq_none_iff.mp hend
    have hws : ws.phase = .receiving := by
      rw [loopStep] at hloop
      · cases hloop
        rfl
      · exact hphase
    refine ⟨d, hI.passed, hI.queued, hI.lastId, ?_,
      fun _ => ⟨due, s.position, false, hlink, hdue.trans hsent⟩⟩
    intro hsubscribing
    exact absurd (hws.symm.trans hsubscribing) nofun

theorem Delivering.opened (hI : Delivering s d) (hphase : ws.phase = .subscribing)
    (h : Subscriber.advance handlers now
      { s with ws, position := 0, wire := s.wire ++ [.opened] } = some s') :
    ∃ d', Delivering s' d' := by
  have hopened : Delivering { s with ws, position := 0, wire := s.wire ++ [.opened] }
      { d with link := some ⟨d.queued.length, 0, false⟩ } := by
    refine ⟨?_, hI.queued, hI.lastId, ?_, ?_⟩
    · exact exec_append_eq_some.mpr ⟨d, hI.passed, rfl⟩
    · exact fun _ => ⟨d.queued.length, rfl, (congrArg List.length hI.queued).le⟩
    · intro hreads
      dsimp only at hreads
      rw [hphase] at hreads
      exact absurd hreads Bool.false_ne_true
  exact hopened.advance hphase h

theorem Delivering.frame (hI : Delivering s d) (hreads : s.ws.phase.reads = true)
    (hphase : ws.phase ≠ .subscribing) :
    ∃ d', Delivering { s with ws, wire := s.wire ++ [.frame] } d' := by
  obtain ⟨due, sent, reading, hlink, hdue⟩ := hI.reading hreads
  have hframe : Delivery.step d .frame = some { d with link := some ⟨due, sent, true⟩ } := by
    simp only [Delivery.step]
    rw [hlink]
    exact if_pos hdue
  refine ⟨{ d with link := some ⟨due, sent, true⟩ }, ?_, hI.queued, hI.lastId,
    fun h => absurd h hphase, fun _ => ⟨due, sent, true, rfl, hdue⟩⟩
  exact exec_append_eq_some.mpr ⟨d, hI.passed, exec_cons_eq_some.mpr ⟨_, hframe, rfl⟩⟩

theorem Delivering.step (hI : Delivering s d) {step : SubscriberStep}
    (h : subscriberStep handlers s step = some s') : ∃ d', Delivering s' d' := by
  cases step with
  | subscribe channel params =>
    cases h
    exact hI.subscribe channel params
  | setStop =>
    cases h
    exact ⟨d, hI.passed, hI.queued, hI.lastId, hI.subscribing, hI.reading⟩
  | sent =>
    simp only [subscriberStep] at h
    split_ifs at h with hphase
    exact hI.advance hphase h
  | loop event now =>
    by_cases hevent : event = .subscribed
    · cases hevent
      exact absurd h.symm (Option.some_ne_none _)
    rw [subscriberStep] at h
    · obtain ⟨⟨ws, met⟩, hloop, h⟩ := Option.bind_eq_some_iff.mp h
      rcases loopStep_phase hloop with ⟨rfl, hphase⟩ | ⟨rfl, hreads, hphase⟩ | ⟨rfl, _⟩ |
        ⟨hopened, hmessage, hphase, hreads⟩
      · exact hI.opened hphase h
      · cases h
        exact hI.frame hreads hphase
      · exact absurd rfl hevent
      · have hs' : s' = { s with ws } := by
          cases met with
          | none => exact (Option.some.inj h).symm
          | some met =>
            cases met with
            | opened => exact absurd rfl hopened
            | message => exact absurd rfl hmessage
            | failed => exact (Option.some.inj h).symm
        subst hs'
        refine ⟨d, hI.passed, hI.queued, hI.lastId, fun h => absurd h hphase, ?_⟩
        exact fun h => hI.reading (hreads h)
    · exact fun heq => hevent heq

end Client

/-- In every run of the client and of the tasks that subscribe. -/
theorem subscriptions_replayed (handlers : List String) (now : ℚ) (steps : List SubscriberStep) :
    AllStates (subscriberStep handlers) (fun s => Replayed s.wire) (.init now) steps := by
  apply allStates_of_invariant (I := fun s => ∃ d, Delivering s d) _ _ _ steps
  · rintro s step s' ⟨d, hI⟩ h
    exact hI.step h
  · rintro s ⟨d, hI⟩
    exact replayed_of_deliver hI.passed
  · exact ⟨.start, .init now⟩

/-- One subscription is sent again on the second connection, with one that came in on the first. -/
example : (exec (subscriberStep []) (.init 0)
    [.subscribe "ticker" [], .loop .connects 0, .sent, .loop (.receives .notJson) 1,
      .subscribe "fill" [], .loop .breaks 2, .loop (.left false noJitter) 2, .loop .wakes 9,
      .loop .connects 9, .sent, .sent]).map (fun s => (commandsOf s.wire).map Command.id) =
    some [1, 2, 3] := by
  decide +kernel

end KalshiAgent

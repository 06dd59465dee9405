import KalshiAgent.Execution.Executor
import KalshiAgent.Lib.Execution
import KalshiAgent.Safety.HaltActions

/-! Orders against the HALT file, over every interleaving. The reconciler's lock lets one signal
at a time past it; the HALT file is looked at in `check_trade`, and the request loop transmits
and retries after it. The ghost state records every transmission and every approval. -/

namespace KalshiAgent
open Execution

inductive Holder
  | reconciling
  | fetchingMarket (signal : Signal)
  | fetchingBankroll (signal : Signal) (currentPrice : ℚ) (category : Option String)
  | ordering (request : OrderRequest) (phase : RequestPhase OrderResponse)

/-- A transmitted POST to /portfolio/orders: whether there was a HALT file, and the number of
engagements begun by then. -/
structure Post where
  clientOrderId : String
  halted : Bool
  engagement : ℕ
  deriving DecidableEq

structure Approval where
  clientOrderId : String
  halted : Bool
  engagement : ℕ

structure System where
  agent : Agent
  waiting : List Signal
  holder : Option Holder
  monitor : HaltMonitor
  -- ghost state
  engagements : ℕ
  approvals : List Approval
  posts : List Post

def System.start (agent : Agent) : System where
  agent := agent
  waiting := []
  holder := none
  monitor := .start agent.kill
  engagements := if agent.kill.isEngaged then 1 else 0
  approvals := []
  posts := []

inductive SystemStep
  -- the HALT file appears, from any source, or is removed
  | engage (reason : HaltReason) (source : String)
  | disengage
  | monitorTick
  | monitorCancelled (n : ℤ)
  -- another task writes the tables
  | tables (db : Db)
  | lockReconciler
  | unlockReconciler
  -- a task calls `handle_signal`; later it gets the lock
  | handleSignal (signal : Signal)
  | enter (i : ℕ) (now : Time)
  | market (fetched : Except ClientError Market) (clock : Clock)
  | bankroll (fetched : Except ClientError ℚ) (clock later : Clock) (clientOrderId : String)
  -- a token is granted and the request goes out
  | token
  | reply (reply : HttpReply OrderResponse) (clock : Clock)
  | wake (clock : Clock)

namespace System

def setAgent (s : System) (agent : Agent) : System :=
  { s with
    agent := agent
    engagements := if s.agent.kill.isEngaged = false ∧ agent.kill.isEngaged = true then
      s.engagements + 1 else s.engagements }

def setPhase (cfg : Config) (s : System) (request : OrderRequest) (clock : Clock) :
    RequestPhase OrderResponse → System
  | .finished outcome =>
    { s.setAgent (recordOutcome cfg s.agent request.clientOrderId outcome clock) with holder := none }
  | phase => { s with holder := some (.ordering request phase) }

end System

def systemStep (cfg : Config) (s : System) : SystemStep → Option System
  | .engage reason source =>
    some (s.setAgent { s.agent with kill := s.agent.kill.engage reason source })
  | .disengage => some (s.setAgent { s.agent with kill := s.agent.kill.disengage.1 })
  | .monitorTick =>
    if s.monitor.cancelling.isNone then
      let (monitor, db) := s.monitor.tick s.agent.db s.agent.kill
      some { s with monitor := monitor, agent := { s.agent with db := db } }
    else none
  | .monitorCancelled n =>
    let (monitor, db) := s.monitor.cancelled s.agent.db n
    some { s with monitor := monitor, agent := { s.agent with db := db } }
  | .tables db => some { s with agent := { s.agent with db := db } }
  | .lockReconciler =>
    match s.holder with
    | none => some { s with holder := some .reconciling }
    | some _ => none
  | .unlockReconciler =>
    match s.holder with
    | some .reconciling => some { s with holder := none }
    | _ => none
  | .handleSignal signal => some { s with waiting := s.waiting ++ [signal] }
  | .enter i now =>
    match s.holder, s.waiting[i]? with
    | none, some signal =>
      let (agent, next) := preflight s.agent signal now
      some { s.setAgent agent with
        waiting := s.waiting.eraseIdx i
        holder := next.map (fun _ => .fetchingMarket signal) }
    | _, _ => none
  | .market fetched clock =>
    match s.holder with
    | some (.fetchingMarket signal) =>
      let (agent, next) := quoteMarket cfg s.agent signal fetched clock
      some { s.setAgent agent with
        holder := next.map (fun quote => .fetchingBankroll signal quote.1 quote.2) }
    | _ => none
  | .bankroll fetched clock later clientOrderId =>
    match s.holder with
    | some (.fetchingBankroll signal currentPrice category) =>
      match approve cfg s.agent signal currentPrice category fetched clock later clientOrderId with
      | (agent, none) => some { s.setAgent agent with holder := none }
      | (agent, some request) =>
        some { s.setAgent agent with
          holder := some (.ordering request .start)
          approvals := s.approvals ++
            [⟨request.clientOrderId, s.agent.kill.isEngaged, s.engagements⟩] }
    | _ => none
  | .token =>
    match s.holder with
    | some (.ordering request (.acquiring attempt lastExc)) =>
      some { s with
        holder := some (.ordering request (.awaiting attempt lastExc))
        posts := s.posts ++ [⟨request.clientOrderId, s.agent.kill.isEngaged, s.engagements⟩] }
    | _ => none
  | .reply reply clock =>
    match s.holder with
    | some (.ordering request (.awaiting attempt lastExc)) =>
      some (s.setPhase cfg request clock (.onReply attempt lastExc reply))
    | _ => none
  | .wake clock =>
    match s.holder with
    | some (.ordering request (.backingOff attempt lastExc)) =>
      some (s.setPhase cfg request clock (.onWake attempt lastExc))
    | _ => none

/-- What the HALT gate in `check_trade` ensures: a request that goes out while halted is of an
order approved before the engagement began, when there was no HALT file; one engagement sees
requests of one order only, and at most `max_retries` of them. -/
structure HaltRespected (s : System) : Prop where
  approved : ∀ p ∈ s.posts, p.halted = true →
    ∃ a ∈ s.approvals, a.clientOrderId = p.clientOrderId ∧ a.halted = false ∧
      a.engagement < p.engagement
  oneOrder : ∀ p ∈ s.posts, ∀ q ∈ s.posts, p.halted = true → q.halted = true →
    p.engagement = q.engagement → p.clientOrderId = q.clientOrderId
  few : ∀ e, s.posts.countP (fun p => p.halted ∧ p.engagement = e) ≤ maxRetries

namespace System

def halted (s : System) : Bool := s.agent.kill.isEngaged

def inFlight (s : System) : Option (String × RequestPhase OrderResponse) :=
  match s.holder with
  | some (.ordering request phase) => some (request.clientOrderId, phase)
  | _ => none

end System

def RequestPhase.InLoop {β : Type} : RequestPhase β → Prop
  | .acquiring attempt _ => attempt < maxRetries
  | .awaiting attempt _ => attempt < maxRetries
  | .backingOff attempt _ => attempt < maxRetries
  | .asleep attempt => attempt < maxRetries
  | .finished _ => True

def Turns (s s' : System) : Prop :=
  s.engagements ≤ s'.engagements ∧
    (s'.halted = true →
      (s.halted = true ∧ s'.engagements = s.engagements) ∨ s'.engagements = s.engagements + 1)

def Continues (s s' : System) : Prop :=
  ∀ id phase', s'.inFlight = some (id, phase') → ∃ phase, s.inFlight = some (id, phase) ∧
    phase.sent ≤ phase'.sent ∧ (phase.InLoop → phase'.InLoop)

theorem setAgent_turns (s : System) (agent : Agent) : Turns s (s.setAgent agent) := by
  unfold Turns System.setAgent System.halted
  dsimp only
  split_ifs with hnew
  · exact ⟨Nat.le_succ _, fun _ => .inr rfl⟩
  · refine ⟨le_rfl, fun hon => .inl ⟨?_, rfl⟩⟩
    by_contra hoff
    exact hnew ⟨Bool.eq_false_iff.mpr hoff, hon⟩

theorem turns_refl (s : System) : Turns s s := ⟨le_rfl, fun hon => .inl ⟨hon, rfl⟩⟩

theorem continues_refl (s : System) : Continues s s :=
  fun _ phase h => ⟨phase, h, le_rfl, id⟩

theorem continues_of_none {s s' : System} (h : s'.inFlight = none) : Continues s s' :=
  fun _ _ hflight => absurd (h.symm.trans hflight) (Option.some_ne_none _).symm

inductive StepView (s s' : System) : Prop
  | quiet (happrovals : s'.approvals = s.approvals) (hposts : s'.posts = s.posts)
      (hturns : Turns s s') (hcontinues : Continues s s')
  | approves (id : String) (hoff : s.halted = false) (hoff' : s'.halted = false)
      (hengagements : s'.engagements = s.engagements)
      (happrovals : s'.approvals = s.approvals ++ [⟨id, false, s.engagements⟩])
      (hposts : s'.posts = s.posts) (hflight : s'.inFlight = some (id, .start))
  | transmits (id : String) (attempt : ℕ) (lastExc : Option ClientError)
      (hflight : s.inFlight = some (id, .acquiring attempt lastExc))
      (hflight' : s'.inFlight = some (id, .awaiting attempt lastExc))
      (hhalted : s'.halted = s.halted) (hengagements : s'.engagements = s.engagements)
      (happrovals : s'.approvals = s.approvals)
      (hposts : s'.posts = s.posts ++ [⟨id, s.halted, s.engagements⟩])

def RequestPhase.GoesTo {β : Type} (phase next : RequestPhase β) : Prop :=
  (∃ outcome, next = .finished outcome) ∨
    (phase.sent ≤ next.sent ∧ (phase.InLoop → next.InLoop))

theorem pause_goesTo (attempt : ℕ) (lastExc lastExc' : Option ClientError) (sleep : Sleep) :
    (RequestPhase.awaiting attempt lastExc : RequestPhase OrderResponse).GoesTo
      (.pause attempt lastExc' sleep) := by
  cases sleep with
  | wakes => exact .inr ⟨le_rfl, id⟩
  | neverWakes => exact .inr ⟨le_rfl, id⟩
  | raises message => exact .inl ⟨_, rfl⟩

theorem onReply_goesTo (attempt : ℕ) (lastExc : Option ClientError)
    (reply : HttpReply OrderResponse) :
    (RequestPhase.awaiting attempt lastExc).GoesTo (.onReply attempt lastExc reply) := by
  cases reply with
  | httpError message => exact pause_goesTo attempt lastExc _ _
  | response statusCode text retryAfter body =>
    unfold RequestPhase.onReply
    dsimp only
    split_ifs
    · exact pause_goesTo attempt lastExc _ _
    · exact pause_goesTo attempt lastExc _ _
    · exact .inl ⟨_, rfl⟩
    · exact .inl ⟨_, rfl⟩
    · exact .inl ⟨_, rfl⟩

theorem onWake_goesTo (attempt : ℕ) (lastExc : Option ClientError) :
    (RequestPhase.backingOff attempt lastExc : RequestPhase OrderResponse).GoesTo
      (.onWake attempt lastExc) := by
  unfold RequestPhase.onWake
  split_ifs with hmore
  · exact .inr ⟨le_rfl, fun _ => hmore⟩
  · exact .inl ⟨_, rfl⟩

theorem setPhase_view (cfg : Config) {s : System} {request : OrderRequest}
    {phase next : RequestPhase OrderResponse} (hholder : s.holder = some (.ordering request phase))
    (clock : Clock) (hnext : phase.GoesTo next) :
    StepView s (s.setPhase cfg request clock next) := by
  have hflight : s.inFlight = some (request.clientOrderId, phase) := by
    rw [System.inFlight, hholder]
  cases next with
  | finished outcome => exact .quiet rfl rfl (setAgent_turns s _) (continues_of_none rfl)
  | acquiring attempt lastExc | awaiting attempt lastExc | backingOff attempt lastExc
    | asleep attempt =>
    obtain ⟨outcome, hfinished⟩ | hnext := hnext
    · cases hfinished
    · refine .quiet rfl rfl (turns_refl s) fun id phase' hphase' => ?_
      cases hphase'
      exact ⟨phase, hflight, hnext⟩

theorem systemStep_view {cfg : Config} {s s' : System} {step : SystemStep}
    (h : systemStep cfg s step = some s') : StepView s s' := by
  cases step with
  | engage reason source =>
    cases h
    exact .quiet rfl rfl (setAgent_turns s _) (continues_refl s)
  | disengage =>
    cases h
    exact .quiet rfl rfl (setAgent_turns s _) (continues_refl s)
  | monitorTick =>
    simp only [systemStep] at h
    split_ifs at h
    cases h
    exact .quiet rfl rfl (turns_refl s) (continues_refl s)
  | monitorCancelled n =>
    cases h
    exact .quiet rfl rfl (turns_refl s) (continues_refl s)
  | tables db =>
    cases h
    exact .quiet rfl rfl (turns_refl s) (continues_refl s)
  | lockReconciler =>
    simp only [systemStep] at h
    split at h
    · cases h
      exact .quiet rfl rfl (turns_refl s) (continues_of_none rfl)
    · cases h
  | unlockReconciler =>
    simp only [systemStep] at h
    split at h
    · cases h
      exact .quiet rfl rfl (turns_refl s) (continues_of_none rfl)
    · cases h
  | handleSignal signal =>
    cases h
    exact .quiet rfl rfl (turns_refl s) (continues_refl s)
  | enter i now =>
    simp only [systemStep] at h
    split at h
    · next signal _ _ =>
      cases h
      refine .quiet rfl rfl (setAgent_turns s _) (continues_of_none ?_)
      unfold System.inFlight
      cases (preflight s.agent signal now).2 <;> rfl
    · cases h
  | market fetched clock =>
    simp only [systemStep] at h
    split at h
    · next signal _ =>
      cases h
      refine .quiet rfl rfl (setAgent_turns s _) (continues_of_none ?_)
      unfold System.inFlight
      cases (quoteMarket cfg s.agent signal fetched clock).2 <;> rfl
    · cases h
  | bankroll fetched clock later clientOrderId =>
    simp only [systemStep] at h
    split at h
    · split at h
      · cases h
        exact .quiet rfl rfl (setAgent_turns s _) (continues_of_none rfl)
      · next agent request happrove =>
        cases h
        obtain ⟨hoff, hkill, _⟩ := approve_some happrove
        refine .approves request.clientOrderId hoff ?_ ?_ ?_ rfl rfl
        · exact (congrArg KillSwitch.isEngaged hkill).trans hoff
        · simp [System.setAgent, hkill, hoff]
        · simp [hoff]
    · cases h
  | token =>
    simp only [systemStep] at h
    split at h
    · next request attempt lastExc hholder =>
      cases h
      refine .transmits request.clientOrderId attempt lastExc ?_ rfl rfl rfl rfl rfl
      rw [System.inFlight, hholder]
    · cases h
  | reply reply clock =>
    simp only [systemStep] at h
    split at h
    · next request attempt lastExc hholder =>
      cases h
      exact setPhase_view cfg hholder clock (onReply_goesTo attempt lastExc reply)
    · cases h
  | wake clock =>
    simp only [systemStep] at h
    split at h
    · next request attempt lastExc hholder =>
      cases h
      exact setPhase_view cfg hholder clock (onWake_goesTo attempt lastExc)
    · cases h

def haltedPosts (s : System) (e : ℕ) : ℕ := s.posts.countP (fun p => p.halted ∧ p.engagement = e)

structure FlightRespected (s : System) (id : String) (phase : RequestPhase OrderResponse) : Prop where
  inLoop : phase.InLoop
  approved : ∃ a ∈ s.approvals, a.clientOrderId = id ∧
    (s.halted = true → a.engagement < s.engagements)
  only : s.halted = true → ∀ p ∈ s.posts, p.halted = true → p.engagement = s.engagements →
    p.clientOrderId = id
  counted : s.halted = true → haltedPosts s s.engagements ≤ phase.sent

structure HaltInvariant (s : System) : Prop where
  respected : HaltRespected s
  approvals : ∀ a ∈ s.approvals, a.halted = false ∧ a.engagement ≤ s.engagements
  posts : ∀ p ∈ s.posts, p.engagement ≤ s.engagements
  flight : ∀ id phase, s.inFlight = some (id, phase) → FlightRespected s id phase

theorem haltedPosts_of_lt {s : System} {e : ℕ} (h : ∀ p ∈ s.posts, p.engagement < e) :
    haltedPosts s e = 0 := by
  rw [haltedPosts, List.countP_eq_zero]
  intro p hp
  have hlt := h p hp
  simp only [decide_eq_true_eq]
  omega

theorem HaltInvariant.quiet {s s' : System} (hI : HaltInvariant s)
    (happrovals : s'.approvals = s.approvals) (hposts : s'.posts = s.posts) (hturns : Turns s s')
    (hcontinues : Continues s s') : HaltInvariant s' := by
  obtain ⟨hle, hturn⟩ := hturns
  refine ⟨?_, ?_, ?_, ?_⟩
  · exact ⟨by rw [happrovals, hposts]; exact hI.respected.approved,
      by rw [hposts]; exact hI.respected.oneOrder, by rw [hposts]; exact hI.respected.few⟩
  · intro a ha
    obtain ⟨hoff, hold⟩ := hI.approvals a (happrovals ▸ ha)
    exact ⟨hoff, hold.trans hle⟩
  · intro p hp
    exact (hI.posts p (hposts ▸ hp)).trans hle
  · intro id phase' hflight'
    obtain ⟨phase, hflight, hsent, hloop⟩ := hcontinues id phase' hflight'
    have hF := hI.flight id phase hflight
    obtain ⟨a, ha, hid, hbefore⟩ := hF.approved
    refine ⟨hloop hF.inLoop, ⟨a, happrovals ▸ ha, hid, fun hon => ?_⟩, fun hon => ?_, fun hon => ?_⟩
    · -- a new engagement begins after every approval so far
      have hold := (hI.approvals a ha).2
      rcases hturn hon with ⟨hon₀, hsame⟩ | hnew
      · exact hsame ▸ hbefore hon₀
      · omega
    · rw [hposts]
      rcases hturn hon with ⟨hon₀, hsame⟩ | hnew
      · exact hsame ▸ hF.only hon₀
      · intro p hp _ heng
        have hold := hI.posts p hp
        omega
    · have hcount : haltedPosts s' s'.engagements = haltedPosts s s'.engagements := by
        rw [haltedPosts, hposts, haltedPosts]
      rw [hcount]
      rcases hturn hon with ⟨hon₀, hsame⟩ | hnew
      · exact hsame ▸ (hF.counted hon₀).trans hsent
      · rw [haltedPosts_of_lt (fun p hp => by have := hI.posts p hp; omega)]
        exact Nat.zero_le _

theorem HaltInvariant.transmit {s s' : System} {id : String} {attempt : ℕ}
    {lastExc : Option ClientError} (hI : HaltInvariant s)
    (hflight : s.inFlight = some (id, .acquiring attempt lastExc))
    (hflight' : s'.inFlight = some (id, .awaiting attempt lastExc)) (hhalted : s'.halted = s.halted)
    (hengagements : s'.engagements = s.engagements) (happrovals : s'.approvals = s.approvals)
    (hposts : s'.posts = s.posts ++ [⟨id, s.halted, s.engagements⟩]) : HaltInvariant s' := by
  have hF := hI.flight id _ hflight
  have hattempt : attempt < maxRetries := hF.inLoop
  have hcount : ∀ e, haltedPosts s' e =
      haltedPosts s e + if s.halted = true ∧ s.engagements = e then 1 else 0 := by
    intro e
    rw [haltedPosts, hposts, List.countP_append, List.countP_singleton, haltedPosts]
    simp only [decide_eq_true_eq]
  have hmem : ∀ p ∈ s'.posts, p ∈ s.posts ∨ p = ⟨id, s.halted, s.engagements⟩ := by
    intro p hp
    rw [hposts] at hp
    exact (List.mem_append.mp hp).imp_right List.mem_singleton.mp
  refine ⟨⟨?_, ?_, ?_⟩, ?_, ?_, ?_⟩
  · intro p hp hon
    rw [happrovals]
    rcases hmem p hp with hold | rfl
    · exact hI.respected.approved p hold hon
    · obtain ⟨a, ha, hid, hbefore⟩ := hF.approved
      exact ⟨a, ha, hid, (hI.approvals a ha).1, hbefore hon⟩
  · intro p hp q hq hpon hqon heng
    rcases hmem p hp with hpold | rfl <;> rcases hmem q hq with hqold | rfl
    · exact hI.respected.oneOrder p hpold q hqold hpon hqon heng
    · exact hF.only hqon p hpold hpon heng
    · exact (hF.only hpon q hqold hqon heng.symm).symm
    · rfl
  · intro e
    change haltedPosts s' e ≤ maxRetries
    rw [hcount]
    split_ifs with hnow
    · obtain ⟨hon, rfl⟩ := hnow
      exact (Nat.add_le_add_right (hF.counted hon) 1).trans hattempt
    · exact hI.respected.few e
  · intro a ha
    rw [hengagements]
    exact hI.approvals a (happrovals ▸ ha)
  · intro p hp
    rw [hengagements]
    rcases hmem p hp with hold | rfl
    · exact hI.posts p hold
    · exact le_rfl
  · intro id' phase hflight₁
    obtain ⟨rfl, rfl⟩ := Prod.mk.inj (Option.some.inj (hflight'.symm.trans hflight₁))
    refine ⟨hattempt, ?_, fun hon p hp hpon heng => ?_, fun hon => ?_⟩
    · rw [happrovals, hhalted, hengagements]
      exact hF.approved
    · rw [hhalted] at hon
      rw [hengagements] at heng
      rcases hmem p hp with hold | rfl
      · exact hF.only hon p hold hpon heng
      · rfl
    · rw [hhalted] at hon
      rw [hengagements, hcount, if_pos ⟨hon, rfl⟩]
      exact Nat.add_le_add_right (hF.counted hon) 1

theorem HaltInvariant.approve {s s' : System} {id : String} (hI : HaltInvariant s)
    (hoff' : s'.halted = false) (hengagements : s'.engagements = s.engagements)
    (happrovals : s'.approvals = s.approvals ++ [⟨id, false, s.engagements⟩])
    (hposts : s'.posts = s.posts) (hflight : s'.inFlight = some (id, .start)) :
    HaltInvariant s' := by
  have hnever : s'.halted ≠ true := by
    rw [hoff']
    exact Bool.false_ne_true
  refine ⟨⟨?_, ?_, ?_⟩, ?_, ?_, ?_⟩
  · intro p hp hon
    obtain ⟨a, ha, hrest⟩ := hI.respected.approved p (hposts ▸ hp) hon
    exact ⟨a, happrovals ▸ List.mem_append_left _ ha, hrest⟩
  · rw [hposts]
    exact hI.respected.oneOrder
  · rw [hposts]
    exact hI.respected.few
  · intro a ha
    rw [happrovals] at ha
    rw [hengagements]
    rcases List.mem_append.mp ha with hold | hnew
    · exact hI.approvals a hold
    · obtain rfl := List.mem_singleton.mp hnew
      exact ⟨rfl, le_rfl⟩
  · intro p hp
    rw [hengagements]
    exact hI.posts p (hposts ▸ hp)
  · intro id' phase hflight'
    obtain ⟨rfl, rfl⟩ := Prod.mk.inj (Option.some.inj (hflight.symm.trans hflight'))
    refine ⟨(by decide : 0 < maxRetries),
      ⟨_, happrovals ▸ List.mem_append_right _ (List.mem_singleton.mpr rfl), rfl, ?_⟩,
      ?_, ?_⟩ <;> exact fun hon => absurd hon hnever

theorem HaltInvariant.step {cfg : Config} {s s' : System} {step : SystemStep}
    (hI : HaltInvariant s) (h : systemStep cfg s step = some s') : HaltInvariant s' := by
  cases systemStep_view h with
  | quiet happrovals hposts hturns hcontinues =>
    exact hI.quiet happrovals hposts hturns hcontinues
  | approves id hoff hoff' hengagements happrovals hposts hflight =>
    exact hI.approve hoff' hengagements happrovals hposts hflight
  | transmits id attempt lastExc hflight hflight' hhalted hengagements happrovals hposts =>
    exact hI.transmit hflight hflight' hhalted hengagements happrovals hposts

/-- Whatever the interleaving: one engagement of the kill switch is followed by no more than the
attempts of the one order that had passed the HALT check before it. -/
theorem halt_respected (cfg : Config) (agent : Agent) (steps : List SystemStep) :
    AllStates (systemStep cfg) HaltRespected (.start agent) steps := by
  refine allStates_of_invariant (I := HaltInvariant) (fun s step s' hI h => hI.step h)
    (fun s hI => hI.respected) ⟨⟨?_, ?_, ?_⟩, ?_, ?_, ?_⟩ steps
  · exact fun p hp => absurd hp List.not_mem_nil
  · exact fun p hp => absurd hp List.not_mem_nil
  · exact fun e => Nat.zero_le _
  · exact fun a ha => absurd ha List.not_mem_nil
  · exact fun p hp => absurd hp List.not_mem_nil
  · exact fun id phase hflight => absurd hflight (Option.some_ne_none _).symm

def openMarket : Market := ⟨some "economics", some "active", some (.decimal (1 / 2)), none⟩

def unavailable : HttpReply OrderResponse := .response 503 "" .wakes (.error (.api 503 ""))

def haltRace : List SystemStep :=
  [.handleSignal buySignal, .enter 0 0, .market (.ok openMarket) ⟨0, 0⟩,
    .bankroll (.ok 100) ⟨0, 0⟩ ⟨0, 0⟩ "c1", .engage (.manual "drill") "http",
    .token, .reply unavailable ⟨0, 0⟩, .wake ⟨0, 0⟩, .token, .reply unavailable ⟨0, 0⟩,
    .wake ⟨0, 0⟩, .token]

/-- Three requests go out after the HALT file has appeared. -/
theorem posts_while_halted :
    ¬ AllStates (systemStep (.example (.fixed 0))) (fun s => ∀ p ∈ s.posts, p.halted = false)
      (.start ⟨.empty, ⟨none⟩, .start⟩) haltRace := by
  intro h
  have hrun : (exec (systemStep (.example (.fixed 0))) (.start ⟨.empty, ⟨none⟩, .start⟩)
      haltRace).map System.posts = some [⟨"c1", true, 1⟩, ⟨"c1", true, 1⟩, ⟨"c1", true, 1⟩] := by
    decide +kernel
  obtain ⟨s, hs, hposts⟩ := h.last_view hrun
  have hnone := hs ⟨"c1", true, 1⟩ (hposts ▸ List.mem_cons_self)
  exact Bool.false_ne_true hnone.symm

end KalshiAgent

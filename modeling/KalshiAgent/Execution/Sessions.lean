import KalshiAgent.Lib.OneWriter
import KalshiAgent.Fills.Ingestor
import KalshiAgent.Recovery
import KalshiAgent.Safety.HaltActions
import KalshiAgent.Safety.Pnl
import KalshiAgent.Safety.Reconciliation

/-! The sessions of the service's tasks, operation by operation. What a task does between two
awaits is one turn, and only the fill poll awaits inside of a session: it posts to Discord after
`apply_fill` has flushed its rows and before the page is committed. -/

namespace KalshiAgent
open Execution OneWriter

inductive ServiceTask
  | fillPoll
  | executor
  | haltMonitor
  | reconciler
  | recovery
  | snapshotJob
  deriving DecidableEq

instance : Fintype ServiceTask where
  elems := {.fillPoll, .executor, .haltMonitor, .reconciler, .recovery, .snapshotJob}
  complete task := by cases task <;> decide

inductive ServiceTurn
  -- one session that only reads
  | reads (task : ServiceTask)
  -- `list_fills` has returned a page
  | page (fills : List Arrival)
  | decided (signal : Signal) (accepted : Bool) (reason orderId : Option String) (now : Time)
  | placed (signal : Signal) (currentPrice : ℚ) (contracts : ℤ) (clientOrderId : String)
      (clock : Clock)
  | answered (clientOrderId : String) (response : OrderResponse)
  | sendFailed (clientOrderId : String)
  | engaged (reason : Option Halt) (n : ℤ)
  | disengaged
  | reconciled (source : String) (remote : List KalshiPosition)
  | recovered (items : List InFlight) (remote : List ServerOrder)
  | snapshot (day : ℤ)

def ServiceTurn.task : ServiceTurn → ServiceTask
  | reads task => task
  | page _ => .fillPoll
  | decided .. => .executor
  | placed .. => .executor
  | answered .. => .executor
  | sendFailed _ => .executor
  | engaged .. => .haltMonitor
  | disengaged => .haltMonitor
  | reconciled .. => .reconciler
  | recovered .. => .recovery
  | snapshot _ => .snapshotJob

structure SessionEnv where
  ingest : IngestEnv
  -- `DiscordNotifier` has no url where no webhook is configured
  webhookUrl : Option String
  tz : Tz
  python : Binary64.Summation

def SessionEnv.postWaits (env : SessionEnv) : Bool :=
  env.ingest.discord && !(env.webhookUrl.getD "").isEmpty

def onTables (change : Agent → Agent) (db : Db) : Db := (change ⟨db, ⟨none⟩, .start⟩).db

def persistDecisionOps (signal : Signal) (accepted : Bool) (reason orderId : Option String)
    (now : Time) : List (Op Db) :=
  [.write (onTables (fun agent => agent.persistDecision signal accepted reason orderId now)),
    .commit, .close]

def placeOrderOps (signal : Signal) (currentPrice : ℚ) (contracts : ℤ) (clientOrderId : String)
    (now : Time) : List (Op Db) :=
  persistDecisionOps signal true none (some clientOrderId) now ++
    [.write (fun db => { db with orders := db.orders ++ [{
        clientOrderId := clientOrderId
        kalshiOrderId := none
        marketTicker := signal.marketTicker
        side := signal.side
        action := .buy
        count := contracts
        priceDollars := priceDecimalToStr currentPrice
        status := "pending"
        decisionId := some db.decisions.length }] }),
      .commit, .close]

def updateOrderOps (clientOrderId : String) (change : Order → Order) : List (Op Db) :=
  [.query, .write (onTables (fun agent => agent.updateOrder clientOrderId change)), .commit, .close]

/-- A position of an earlier fill is still loaded where it is held: its row is then not looked up
again, and the fill before has been flushed already. -/
def newPositionOps (db : Db) (fill : KalshiFill) : List (Op Db) :=
  match db.positions.find fill.ticker with
  | some _ => []
  | none =>
    [.write (fun db => { db with positions := db.positions.put (newPosition fill) }), .flush]

def tradeOps (fee : ℚ) : Except FillError (Position × ℚ) → List (Op Db)
  | .error _ => []
  | .ok (moved, gross) =>
    [.write (fun db => { db with positions := db.positions.put (moved.accrue (gross - fee)) })]

def applyFillOps (takerRate : ℚ) (db : Db) (a : Arrival) : List (Op Db) :=
  .query ::
    if db.hasFill a.lookupIdentity then []
    else
      match fillPrice a.fill with
      | .error _ => []
      | .ok price =>
        let fee := totalFeeDollars a.fill.count price a.fill.isTaker takerRate
        .write (fun db => { db with fills := db.fills ++ [a.row price fee] }) :: .query ::
          (newPositionOps db a.fill ++ tradeOps fee ((db.positionFor a.fill).trade a.fill price))

def postOps (env : SessionEnv) : List (Op Db) := if env.postWaits then [.pause] else []

def announceOps (env : SessionEnv) (a : Arrival) (realized : ℚ) : List (Op Db) :=
  if realized = 0 then []
  else
    .write (fun db => { db with events := db.events ++ [fillEvent a.fill realized] }) ::
      match if env.ingest.discord then postedPrice a.fill else .ok 0 with
      | .error _ => []
      | .ok _ =>
        postOps env ++
          [.query, .write (fun db => { db with orders := markFilled a.fill.orderId db.orders })]

def ingestFillOps (env : SessionEnv) (db : Db) (a : Arrival) : List (Op Db) :=
  applyFillOps env.ingest.takerRate db a ++
    match applyFill env.ingest.takerRate db a with
    | .error _ => []
    | .ok (_, realized) => announceOps env a realized

def ingestPageOps (env : SessionEnv) (st : PollState) : List Arrival → List (Op Db)
  | [] => [.commit]
  | a :: as =>
    ingestFillOps env st.db a ++
      match ingestFill env.ingest st a with
      | .error _ => []
      | .ok st' => ingestPageOps env st' as

def onEngagedOps (reason : Option Halt) (n : ℤ) : List (Op Db) :=
  [.write (fun db => { db with events := (onEngaged db reason n).events }), .query,
    .write (fun db => { db with orders := (onEngaged db reason n).orders }), .commit, .close]

def mirrorOps (source : String) (written : List (Position × Discrepancy)) : List (Op Db) :=
  .query ::
    (written.map (fun p => .write (fun db => { db with positions := db.positions.put p.1 })) ++
      [.write (fun db => { db with
        events := db.events ++ [reconciliationEvent source (written.map Prod.snd)] })])

def reconcileOps (source : String) (remote : List KalshiPosition) (db : Db) : List (Op Db) :=
  let remoteByTicker : KeyedTable KalshiPosition.ticker := .ofList remote
  match mirrorRemote db.positions remoteByTicker.rows with
  -- the rows written so far were not flushed
  | .error _ => [.query, .close]
  | .ok mirrored =>
    mirrorOps source (mirrored ++ db.positions.rows.filterMap (closeAbsent remoteByTicker)) ++
      [.commit, .close]

def recoverOps (remote : List ServerOrder) : List InFlight → List (Op Db)
  | [] => []
  | item :: items =>
    [.query, .write (onTables (fun agent => (recoverOrder agent remote ⟨0, 0, 0, none⟩ item).1)),
      .commit, .close] ++ recoverOps remote items

def snapshotOps (python : Binary64.Summation) (tz : Tz) (day : ℤ) (db : Db) : List (Op Db) :=
  [.query, .query, .query] ++
    -- `merge` looks the row up again where it is new
    (if (db.pnlDaily.find day).isNone then [.query] else []) ++
    [.write (fun db => snapshotDailyPnl python db day tz), .commit]

def turnOps (env : SessionEnv) (turn : ServiceTurn) (db : Db) : List (Op Db) :=
  match turn with
  | .reads _ => [.query, .close]
  | .page fills => ingestPageOps env ⟨db, 0, 0⟩ fills ++ [.close]
  | .decided signal accepted reason orderId now =>
    persistDecisionOps signal accepted reason orderId now
  | .placed signal currentPrice contracts clientOrderId clock =>
    placeOrderOps signal currentPrice contracts clientOrderId clock.now
  | .answered clientOrderId response =>
    updateOrderOps clientOrderId
      (fun row => { row with kalshiOrderId := some response.orderId, status := response.status })
  | .sendFailed clientOrderId =>
    updateOrderOps clientOrderId (fun row => { row with status := "send_failed" })
  | .engaged reason n => onEngagedOps reason n
  | .disengaged => [.write onDisengaged, .commit, .close]
  | .reconciled source remote => reconcileOps source remote db
  | .recovered items remote => recoverOps remote items
  | .snapshot day => snapshotOps env.python env.tz day db ++ [.close]

/-- What the turn does to the tables, as the other modules have it. -/
def ServiceTurn.effect (env : SessionEnv) (db : Db) : ServiceTurn → Db
  | reads _ => db
  | page fills =>
    match ingestPage env.ingest ⟨db, 0, 0⟩ fills with
    | .error _ => db
    | .ok st => st.db
  | decided signal accepted reason orderId now =>
    onTables (fun agent => agent.persistDecision signal accepted reason orderId now) db
  | placed signal currentPrice contracts clientOrderId clock =>
    onTables (fun agent =>
      (placeOrder agent signal currentPrice contracts clientOrderId clock).1) db
  | answered clientOrderId response =>
    onTables (fun agent => agent.updateOrder clientOrderId (fun row =>
      { row with kalshiOrderId := some response.orderId, status := response.status })) db
  | sendFailed clientOrderId =>
    onTables (fun agent => agent.updateOrder clientOrderId (fun row =>
      { row with status := "send_failed" })) db
  | engaged reason n => onEngaged db reason n
  | disengaged => onDisengaged db
  | reconciled source remote =>
    match reconcileInner source db (.ok remote) with
    | .error _ => db
    | .ok (db', _) => db'
  | recovered items remote =>
    onTables (fun agent => (items.foldl (fun p item => recoverOrder p.1 remote p.2 item)
      (agent, ⟨items.length, 0, 0, none⟩)).1) db
  | snapshot day => snapshotDailyPnl env.python db day env.tz

section Fills
variable (env : SessionEnv) (rate : ℚ) (db : Db) (a : Arrival)

theorem newPositionOps_quiet :
    ∀ op ∈ newPositionOps db a.fill, op.waits = false ∧ op.stays = true := by
  intro op hop
  unfold newPositionOps at hop
  split at hop
  · exact absurd hop List.not_mem_nil
  · rcases List.mem_pair.mp hop with rfl | rfl <;> exact ⟨rfl, rfl⟩

theorem tradeOps_quiet (fee : ℚ) (traded : Except FillError (Position × ℚ)) :
    ∀ op ∈ tradeOps fee traded, op.waits = false ∧ op.stays = true := by
  intro op hop
  cases traded with
  | error e => exact absurd hop List.not_mem_nil
  | ok mg =>
    obtain rfl := List.mem_singleton.mp hop
    exact ⟨rfl, rfl⟩

theorem applyFillOps_quiet :
    ∀ op ∈ applyFillOps rate db a, op.waits = false ∧ op.stays = true := by
  unfold applyFillOps
  rw [List.forall_mem_cons]
  refine ⟨⟨rfl, rfl⟩, ?_⟩
  split_ifs
  · exact fun op hop => absurd hop List.not_mem_nil
  · split
    · exact fun op hop => absurd hop List.not_mem_nil
    · rw [List.forall_mem_cons, List.forall_mem_cons, List.forall_mem_append]
      exact ⟨⟨rfl, rfl⟩, ⟨rfl, rfl⟩, newPositionOps_quiet db a, tradeOps_quiet _ _⟩

theorem applyFillOps_holds {db' : Db} {realized : ℚ} (h : applyFill rate db a = .ok (db', realized))
    (hrealized : realized ≠ 0) (s : Session Db) :
    ((applyFillOps rate db a).foldl Session.after s).holds = true := by
  obtain ⟨_, _, rfl⟩ | ⟨hnew, price, moved, gross, hprice, _⟩ := applyFill_cases h
  · exact absurd rfl hrealized
  · have hquiet := applyFillOps_quiet rate db a
    unfold applyFillOps at hquiet ⊢
    rw [hnew, if_neg Bool.false_ne_true, hprice] at hquiet ⊢
    have hrest := (List.forall_mem_cons.mp (List.forall_mem_cons.mp
      (List.forall_mem_cons.mp hquiet).2).2).2
    refine holds_foldl (fun op hop => (hrest op hop).2) ?_
    simp [Session.after, Session.flush, Session.holds]

theorem applyFillOps_changed {db' : Db} {realized : ℚ}
    (h : applyFill rate db a = .ok (db', realized)) :
    changed db (applyFillOps rate db a) = db' := by
  unfold applyFillOps
  obtain ⟨hdup, rfl, _⟩ | ⟨hnew, price, moved, gross, hprice, htrade, rfl, rfl⟩ := applyFill_cases h
  · rw [hdup, if_pos rfl]
    rfl
  · rw [hnew, if_neg Bool.false_ne_true, hprice]
    dsimp only
    rw [htrade]
    have hticker : moved.marketTicker = a.fill.ticker := trade_marketTicker htrade
    unfold newPositionOps
    cases db.positions.find a.fill.ticker with
    | some pos => rfl
    | none =>
      simp only [List.cons_append, List.nil_append, changed, tradeOps, Db.recordFill]
      rw [KeyedTable.put_put]
      exact hticker.symm

theorem postOps_stay : ∀ op ∈ postOps env, op.stays = true := by
  intro op hop
  unfold postOps at hop
  split_ifs at hop
  · exact List.mem_singleton.mp hop ▸ rfl
  · exact absurd hop List.not_mem_nil

theorem announceOps_stay (realized : ℚ) : ∀ op ∈ announceOps env a realized, op.stays = true := by
  unfold announceOps
  by_cases hzero : realized = 0
  · rw [if_pos hzero]
    exact fun op hop => absurd hop List.not_mem_nil
  · rw [if_neg hzero, List.forall_mem_cons]
    refine ⟨rfl, ?_⟩
    split
    · exact fun op hop => absurd hop List.not_mem_nil
    · rw [List.forall_mem_append]
      exact ⟨postOps_stay env, by simp [Op.stays]⟩

theorem changed_postOps (db : Db) (ops : List (Op Db)) :
    changed db (postOps env ++ ops) = changed db ops := by
  unfold postOps
  split_ifs <;> rfl

theorem announceOps_grips {realized : ℚ} {s : Session Db} {ops : List (Op Db)}
    (hs : realized ≠ 0 → s.holds = true) (hops : ∀ s, Grips s ops) :
    Grips s (announceOps env a realized ++ ops) := by
  unfold announceOps
  by_cases hzero : realized = 0
  · rw [if_pos hzero]
    exact hops s
  · rw [if_neg hzero]
    split
    · exact hops _
    · unfold postOps
      split_ifs
      · exact ⟨hs hzero, hops _⟩
      · exact hops _

theorem announceOps_waits (realized : ℚ) :
    (∀ op ∈ announceOps env a realized, op.waits = false) ↔
      ¬ (env.postWaits = true ∧ realized ≠ 0 ∧ (postedPrice a.fill).isOk = true) := by
  unfold announceOps
  by_cases hzero : realized = 0
  · simp [hzero]
  · rw [if_neg hzero, List.forall_mem_cons]
    unfold postOps
    cases hwaits : env.postWaits with
    | false =>
      split <;> simp [Op.waits]
    | true =>
      have hdiscord : env.ingest.discord = true := (Bool.and_eq_true_iff.mp hwaits).1
      rw [if_pos hdiscord]
      cases postedPrice a.fill with
      | error e => simp [Op.waits, Except.isOk, Except.toBool]
      | ok price => simp [Op.waits, Except.isOk, Except.toBool, hzero]

theorem ingestFillOps_stay : ∀ op ∈ ingestFillOps env db a, op.stays = true := by
  unfold ingestFillOps
  rw [List.forall_mem_append]
  refine ⟨fun op hop => (applyFillOps_quiet _ db a op hop).2, ?_⟩
  split
  · exact fun op hop => absurd hop List.not_mem_nil
  · exact announceOps_stay env a _

theorem ingestFillOps_changed {st st' : PollState} (h : ingestFill env.ingest st a = .ok st') :
    changed st.db (ingestFillOps env st.db a) = st'.db := by
  unfold ingestFill at h
  unfold ingestFillOps
  rw [changed_append]
  cases happly : applyFill env.ingest.takerRate st.db a with
  | error e => simp [happly] at h
  | ok booked =>
    obtain ⟨db', realized⟩ := booked
    rw [applyFillOps_changed _ _ _ happly]
    simp only [happly] at h
    dsimp only
    unfold announceOps
    by_cases hzero : realized = 0
    · rw [if_pos hzero] at h ⊢
      cases h
      rfl
    · rw [if_neg hzero] at h ⊢
      cases hprice : (if env.ingest.discord = true then postedPrice a.fill else .ok 0) with
      | error e => simp [hprice] at h
      | ok price =>
        simp only [hprice, Except.ok.injEq] at h
        subst h
        exact changed_postOps env _ _

end Fills

def announces (takerRate : ℚ) (db : Db) : List Arrival → Bool
  | [] => false
  | a :: as =>
    match applyFill takerRate db a with
    | .error _ => false
    | .ok (db', realized) =>
      if realized = 0 then announces takerRate db' as else (postedPrice a.fill).isOk

section Page
variable (env : SessionEnv)

theorem ingestPageOps_grips (st : PollState) (fills : List Arrival) (s : Session Db) :
    Grips s (ingestPageOps env st fills ++ [.close]) := by
  induction fills generalizing st s with
  | nil => rfl
  | cons a as ih =>
    have hrest : ∀ s, Grips s ((match ingestFill env.ingest st a with
        | .error _ => []
        | .ok st' => ingestPageOps env st' as) ++ [.close]) := by
      intro s
      cases ingestFill env.ingest st a with
      | error e => rfl
      | ok st' => exact ih st' s
    rw [ingestPageOps, ingestFillOps, List.append_assoc, List.append_assoc,
      grips_append (fun op hop => (applyFillOps_quiet _ st.db a op hop).1)]
    cases happly : applyFill env.ingest.takerRate st.db a with
    | error e => exact hrest _
    | ok booked =>
      exact announceOps_grips env a (fun hzero => applyFillOps_holds _ _ _ happly hzero s) hrest

theorem ingestPageOps_waits (st : PollState) (fills : List Arrival) :
    (∀ op ∈ ingestPageOps env st fills, op.waits = false) ↔
      ¬ (env.postWaits = true ∧ announces env.ingest.takerRate st.db fills = true) := by
  induction fills generalizing st with
  | nil => simp [ingestPageOps, announces, Op.waits]
  | cons a as ih =>
    rw [ingestPageOps, ingestFillOps, List.forall_mem_append, List.forall_mem_append,
      and_iff_right (fun op hop => (applyFillOps_quiet _ st.db a op hop).1), announces, ingestFill]
    cases happly : applyFill env.ingest.takerRate st.db a with
    | error e => simp
    | ok booked =>
      obtain ⟨db', realized⟩ := booked
      dsimp only
      rw [announceOps_waits]
      by_cases hzero : realized = 0
      · rw [if_pos hzero, if_pos hzero]
        dsimp only
        rw [ih]
        simp [hzero]
      · rw [if_neg hzero, if_neg hzero]
        cases hwaits : env.postWaits with
        | false =>
          -- without a notifier nothing on the page is posted
          have hrest : ∀ st', ∀ op ∈ ingestPageOps env st' as, op.waits = false := fun st' =>
            (ih st').mpr (by simp [hwaits])
          simp only [Bool.false_eq_true, false_and, not_false_eq_true, true_and, iff_true]
          split
          · exact fun op hop => absurd hop List.not_mem_nil
          · exact hrest _
        | true =>
          have hdiscord : env.ingest.discord = true := (Bool.and_eq_true_iff.mp hwaits).1
          rw [if_pos hdiscord]
          cases postedPrice a.fill with
          | error e => simp [Except.isOk, Except.toBool]
          | ok price => simp [Except.isOk, Except.toBool, hzero]

theorem ingestPageOps_finish (st : PollState) (fills : List Arrival) {db : Db} {s : Session Db}
    (hs : s.view db = st.db) :
    finish db s (ingestPageOps env st fills ++ [.close]) =
      match ingestPage env.ingest st fills with
      | .error _ => db
      | .ok st' => st'.db := by
  induction fills generalizing st s with
  | nil => exact hs
  | cons a as ih =>
    rw [ingestPageOps, ingestPage, List.append_assoc,
      finish_append (ingestFillOps_stay env st.db a)]
    cases hfill : ingestFill env.ingest st a with
    | error e => rfl
    | ok st' =>
      apply ih
      rw [view_foldl (ingestFillOps_stay env st.db a), hs, ingestFillOps_changed env a hfill]

end Page

section Turns
variable (env : SessionEnv)

theorem changed_puts (written : List (Position × Discrepancy)) (db : Db) :
    changed db (written.map (fun p =>
        .write (fun db => { db with positions := db.positions.put p.1 }))) =
      { db with positions := db.positions.putAll (written.map Prod.fst) } := by
  induction written generalizing db with
  | nil => rfl
  | cons p ps ih => exact ih _

theorem mirrorOps_quiet (source : String) (written : List (Position × Discrepancy)) :
    ∀ op ∈ mirrorOps source written, op.waits = false ∧ op.stays = true := by
  unfold mirrorOps
  rw [List.forall_mem_cons, List.forall_mem_append, List.forall_mem_map]
  exact ⟨⟨rfl, rfl⟩, fun _ _ => ⟨rfl, rfl⟩, by simp [Op.waits, Op.stays]⟩

theorem mirrorOps_changed (source : String) (written : List (Position × Discrepancy)) (db : Db) :
    changed db (mirrorOps source written) = { db with
      positions := db.positions.putAll (written.map Prod.fst)
      events := db.events ++ [reconciliationEvent source (written.map Prod.snd)] } := by
  rw [mirrorOps, changed]
  · rw [changed_append, changed_puts]
    rfl
  · exact nofun

theorem reconcileOps_quiet (source : String) (remote : List KalshiPosition) (db : Db) :
    ∀ op ∈ reconcileOps source remote db, op.waits = false := by
  unfold reconcileOps
  dsimp only
  split
  · simp [Op.waits]
  · rw [List.forall_mem_append]
    exact ⟨fun op hop => (mirrorOps_quiet source _ op hop).1, by simp [Op.waits]⟩

theorem reconcileOps_grips (source : String) (remote : List KalshiPosition) (db : Db) :
    Grips .closed (reconcileOps source remote db) := by
  unfold reconcileOps
  dsimp only
  split
  · rfl
  · rw [grips_append (fun op hop => (mirrorOps_quiet source _ op hop).1)]
    rfl

theorem reconcileOps_finish (source : String) (remote : List KalshiPosition) (db : Db) :
    finish db .closed (reconcileOps source remote db) =
      (ServiceTurn.reconciled source remote).effect env db := by
  rw [reconcileOps, ServiceTurn.effect, reconcileInner]
  dsimp only
  cases mirrorRemote db.positions
    (KeyedTable.ofList remote : KeyedTable KalshiPosition.ticker).rows with
  | error e => rfl
  | ok mirrored =>
    rw [finish_commit (fun op hop => (mirrorOps_quiet source _ op hop).2), mirrorOps_changed,
      List.map_append, KeyedTable.putAll, List.foldl_append]
    rfl

theorem recoverOps_grips (remote : List ServerOrder) (items : List InFlight) :
    Grips .closed (recoverOps remote items) := by
  induction items with
  | nil => rfl
  | cons item items ih => exact ih

theorem recoverOps_finish (remote : List ServerOrder) (items : List InFlight)
    (summary : RecoverySummary) (db : Db) :
    finish db .closed (recoverOps remote items) =
      onTables (fun agent => (items.foldl (fun p item => recoverOrder p.1 remote p.2 item)
        (agent, summary)).1) db := by
  induction items generalizing db summary with
  | nil => rfl
  | cons item items ih =>
    have hitem : (recoverOrder ⟨db, ⟨none⟩, .start⟩ remote summary item).1 =
        ⟨onTables (fun agent => (recoverOrder agent remote ⟨0, 0, 0, none⟩ item).1) db, ⟨none⟩,
          .start⟩ := by
      unfold onTables recoverOrder
      cases matchRemote remote item <;> rfl
    have hrest := ih (recoverOrder ⟨db, ⟨none⟩, .start⟩ remote summary item).2
      (onTables (fun agent => (recoverOrder agent remote ⟨0, 0, 0, none⟩ item).1) db)
    refine Eq.trans hrest ?_
    unfold onTables at hitem ⊢
    dsimp only at hitem ⊢
    rw [List.foldl_cons, ← hitem]

theorem recoverOps_quiet (remote : List ServerOrder) (items : List InFlight) :
    ∀ op ∈ recoverOps remote items, op.waits = false := by
  induction items with
  | nil => exact fun op hop => absurd hop List.not_mem_nil
  | cons item items ih =>
    rw [recoverOps, List.forall_mem_append]
    exact ⟨by simp [Op.waits], ih⟩

theorem snapshotOps_quiet (python : Binary64.Summation) (tz : Tz) (day : ℤ) (db : Db) :
    ∀ op ∈ snapshotOps python tz day db, op.waits = false := by
  unfold snapshotOps
  split_ifs <;> simp [Op.waits]

theorem turnOps_grips (turn : ServiceTurn) (db : Db) : Grips .closed (turnOps env turn db) := by
  cases turn with
  | page fills => exact ingestPageOps_grips env _ fills _
  | reconciled source remote => exact reconcileOps_grips source remote db
  | recovered items remote => exact recoverOps_grips remote items
  | snapshot day => exact grips_close (snapshotOps_quiet env.python env.tz day db) _
  | reads | decided | placed | answered | sendFailed | engaged | disengaged => rfl

theorem turnOps_finish (turn : ServiceTurn) (db : Db) :
    finish db .closed (turnOps env turn db) = turn.effect env db := by
  cases turn with
  | page fills => exact ingestPageOps_finish env ⟨db, 0, 0⟩ fills rfl
  | reconciled source remote => exact reconcileOps_finish env source remote db
  | recovered items remote => exact recoverOps_finish remote items _ db
  | snapshot day =>
    rw [turnOps, snapshotOps]
    split_ifs <;> rfl
  | reads | decided | placed | answered | sendFailed | engaged | disengaged => rfl

theorem turnOps_quiet {turn : ServiceTurn} (hturn : ∀ fills, turn ≠ .page fills) (db : Db) :
    ∀ op ∈ turnOps env turn db, op.waits = false := by
  cases turn with
  | page fills => exact absurd rfl (hturn fills)
  | reconciled source remote => exact reconcileOps_quiet source remote db
  | recovered items remote => exact recoverOps_quiet remote items
  | snapshot day =>
    rw [turnOps, List.forall_mem_append]
    exact ⟨snapshotOps_quiet env.python env.tz day db, by simp [Op.waits]⟩
  | reads | decided | placed | answered | sendFailed | engaged | disengaged =>
    simp [turnOps, persistDecisionOps, placeOrderOps, updateOrderOps, onEngagedOps, Op.waits]

end Turns

def PostsNothing (env : SessionEnv) (s : Tasks ServiceTask Db) :
    Choice ServiceTask ServiceTurn → Prop
  | .starts (.page fills) =>
    ¬ (env.postWaits = true ∧ announces env.ingest.takerRate s.db fills = true)
  | _ => True

instance (env : SessionEnv) (s : Tasks ServiceTask Db) (choice : Choice ServiceTask ServiceTurn) :
    Decidable (PostsNothing env s choice) := by
  unfold PostsNothing
  split <;> infer_instance

def sessionStep (env : SessionEnv) :
    Tasks ServiceTask Db → Choice ServiceTask ServiceTurn → Option (Tasks ServiceTask Db) :=
  Tasks.step ServiceTurn.task (turnOps env)

/-- No task sleeps with the write lock, and none meets the lock of another. -/
def SleepsUnlocked (env : SessionEnv) (db : Db) (choices : List (Choice ServiceTask ServiceTurn)) :
    Prop :=
  AllStates (sessionStep env) Tasks.AtRest (.start db) choices ∧
    AllSteps (sessionStep env) (Tasks.Unblocked ServiceTurn.task (turnOps env)) (.start db) choices

theorem runsThrough_iff (env : SessionEnv) (s : Tasks ServiceTask Db)
    (choice : Choice ServiceTask ServiceTurn) :
    s.RunsThrough (turnOps env) choice ↔ PostsNothing env s choice := by
  cases choice with
  | wakes task => exact Iff.rfl
  | starts turn =>
    cases turn with
    | page fills =>
      have hclose : ∀ op ∈ [(.close : Op Db)], op.waits = false := by simp [Op.waits]
      rw [Tasks.RunsThrough, turnOps, List.forall_mem_append, and_iff_left hclose,
        ingestPageOps_waits]
      exact Iff.rfl
    | reads | decided | placed | answered | sendFailed | engaged | disengaged | reconciled
      | recovered | snapshot =>
      refine iff_of_true (turnOps_quiet env ?_ s.db) trivial
      exact nofun

/-- While no task holds the lock, a turn that posts nothing does to the tables what the other
modules say. -/
theorem sessionStep_db {env : SessionEnv} {s s' : Tasks ServiceTask Db} {turn : ServiceTurn}
    (hI : Gripped s) (hs : s.AtRest) (h : sessionStep env s (.starts turn) = some s')
    (hposts : PostsNothing env s (.starts turn)) : s'.db = turn.effect env s.db := by
  rw [← turnOps_finish]
  exact hI.starts_db (turnOps_grips env) hs h ((runsThrough_iff env s _).mpr hposts)

/-- The tasks of a run share the database exactly when no page posts a fill before it commits. -/
theorem sleepsUnlocked_iff (env : SessionEnv) (db : Db)
    (choices : List (Choice ServiceTask ServiceTurn)) :
    SleepsUnlocked env db choices ↔
      AllSteps (sessionStep env) (PostsNothing env) (.start db) choices := by
  refine (atRest_iff (turnOps_grips env) db choices).trans ?_
  exact allSteps_congr (I := fun _ => True) (fun _ _ _ _ _ => trivial)
    (fun s choice _ _ _ => runsThrough_iff env s choice) trivial

def postingEnv : SessionEnv where
  ingest := ⟨7 / 100, true, id⟩
  webhookUrl := some "webhook"
  tz := .fixed 0
  python := .naive

def haltedWhilePosting : List (Choice ServiceTask ServiceTurn) :=
  [.starts (.page [⟨sweepFill "t1" (some 1000), 0, 0, 0⟩]), .starts (.engaged none 0)]

theorem not_sleepsUnlocked : ¬ SleepsUnlocked postingEnv .empty haltedWhilePosting := by
  intro h
  exact absurd h.1 (not_allStates_of_decide (by decide +kernel))

/-- The halt monitor's session meets the lock of the fill poll. -/
example : ¬ AllSteps (sessionStep postingEnv)
    (Tasks.Unblocked ServiceTurn.task (turnOps postingEnv)) (.start .empty) haltedWhilePosting := by
  decide +kernel

end KalshiAgent

import KalshiAgent.Execution.Exchange
import KalshiAgent.Lib.Execution

/-! The total exposure over every interleaving of `handle_signal` calls, executions and polls. The
cap is checked against what has been ingested, and the stored averages are rounded. The ghost
state keeps, for each position, what the last check of the cap has not seen of it. -/

namespace KalshiAgent
open Execution

inductive Call
  | fetchingMarket (signal : Signal)
  | fetchingBankroll (signal : Signal) (currentPrice : ℚ) (category : Option String)
  | creatingOrder (request : OrderRequest)

/-- What the last check of the cap has not seen of a position: the cost of the contracts that other
executions have opened since, and the contracts that its average has been rounded for. -/
structure Unseen where
  cost : ℚ
  rounded : ℤ

namespace Unseen

def nothing : Unseen := ⟨0, 0⟩

def dollars (u : Unseen) : ℚ := u.cost + (u.rounded : ℚ) / 20000

/-- A buy is booked on a row, with `held` contracts after it. What is flat or changes its side starts
anew. -/
def book (u : Unseen) (own : Bool) (before : Position) (held : ℤ) (fill : KalshiFill) : Unseen :=
  let kept := if before.paired fill < before.count then u else nothing
  let opened := before.opened fill
  if opened = 0 then kept
  else ⟨kept.cost + (if own then 0 else fill.price * opened), kept.rounded + held⟩

end Unseen

/-- The last check of the cap: its order's place at the exchange, the executions and the contracts of
that order, and what the check has not seen. -/
structure CapCheck where
  order : Option ℕ
  own : List TimedFill
  contracts : ℤ
  unseen : Ticker → Unseen

namespace CapCheck

def start : CapCheck := ⟨none, [], 0, fun _ => .nothing⟩

def executed (c : CapCheck) (ex : Exchange) (i : ℕ) (e : PartialExecution) : CapCheck :=
  if c.order = some i then
    { c with own := c.own ++ ((ex.working[i]?).map (fun order => order.fill e)).toList }
  else c

def isOwn (c : CapCheck) (fill : KalshiFill) : Bool := c.own.any (fun f => f.toKalshiFill = fill)

def bookFill (c : CapCheck) (db db' : Db) (fill : KalshiFill) : CapCheck :=
  let u := (c.unseen fill.ticker).book (c.isOwn fill) (db.positionFor fill) (db'.held fill.ticker) fill
  { c with unseen := Function.update c.unseen fill.ticker u }

def book (rate : ℚ) : CapCheck → Db → List Arrival → CapCheck
  | c, _, [] => c
  | c, db, a :: as =>
    match applyFill rate db a with
    | .error _ => c
    | .ok (db', _) =>
      if db.hasFill a.lookupIdentity then book rate c db' as
      else book rate (c.bookFill db db' a.fill) db' as

/-- The part of a row's cost that the check has not seen, and the part that it has. -/
def unseenOf (c : CapCheck) (p : Position) : ℚ := min p.exposure (c.unseen p.marketTicker).dollars

def seenOf (c : CapCheck) (p : Position) : ℚ := max (p.exposure - (c.unseen p.marketTicker).dollars) 0

def ownOrder (c : CapCheck) (ex : Exchange) : Exchange :=
  ⟨(c.order.bind (fun i => ex.working[i]?)).toList, c.own⟩

end CapCheck

structure Trading where
  agent : Agent
  highWaterTs : Option ℤ
  call : Option Call
  exchange : Exchange
  -- ghost state
  lastCheck : CapCheck

namespace Trading

def start (agent : Agent) (highWaterTs : Option ℤ) : Trading where
  agent := { agent with db := { agent.db with positions := .empty } }
  highWaterTs := highWaterTs
  call := none
  exchange := ⟨[], []⟩
  lastCheck := .start

/-- An order is let through; the cap is checked for one that opens contracts. -/
def send (s : Trading) (agent : Agent) (request : OrderRequest) (orderId : String) : Trading :=
  let sent := { s with
    agent := agent
    call := some (.creatingOrder request)
    exchange := s.exchange.take orderId request }
  if s.agent.db.heldAgainst request.ticker request.side = 0 then
    { sent with lastCheck := ⟨some s.exchange.working.length, [], request.count, fun _ => .nothing⟩ }
  else sent

end Trading

def Trading.polled (env : IngestEnv) (s : Trading) (script : ListFills) : Trading :=
  let fetched := fetchAndApply env s.agent.db s.highWaterTs (fun _ => script)
  let committed := script.committed env ⟨s.agent.db, 0, s.highWaterTs.getD 0⟩
  { s with
    agent := { s.agent with db := fetched.db }
    highWaterTs := fetched.highWaterTs
    lastCheck := s.lastCheck.book env.takerRate s.agent.db committed }

inductive TradingStep
  | handleSignal (signal : Signal) (now : Time)
  | market (fetched : Except ClientError Market) (clock : Clock)
  | bankroll (fetched : Except ClientError ℚ) (clock later : Clock) (clientOrderId orderId : String)
  | created (outcome : Except ClientError OrderResponse) (clock : Clock)
  | execute (i : ℕ) (e : PartialExecution)
  | expire (i : ℕ)
  -- the pages of a poll hold executions, in any order and any number of times
  | poll (script : ListFills)

def tradingStep (cfg : Config) (env : IngestEnv) (s : Trading) : TradingStep → Option Trading
  | .handleSignal signal now =>
    match s.call with
    | none =>
      let (agent, next) := preflight s.agent signal now
      some { s with agent := agent, call := next.map (fun _ => .fetchingMarket signal) }
    | some _ => none
  | .market fetched clock =>
    match s.call with
    | some (.fetchingMarket signal) =>
      let (agent, next) := quoteMarket cfg s.agent signal fetched clock
      some { s with
        agent := agent
        call := next.map (fun quote => .fetchingBankroll signal quote.1 quote.2) }
    | _ => none
  | .bankroll fetched clock later clientOrderId orderId =>
    match s.call with
    | some (.fetchingBankroll signal currentPrice category) =>
      match approve cfg s.agent signal currentPrice category fetched clock later clientOrderId with
      | (agent, none) => some { s with agent := agent, call := none }
      | (agent, some request) => some (s.send agent request orderId)
    | _ => none
  | .created outcome clock =>
    match s.call with
    | some (.creatingOrder request) =>
      some { s with
        agent := recordOutcome cfg s.agent request.clientOrderId outcome clock, call := none }
    | _ => none
  | .execute i e => (s.exchange.execute i e).map (fun exchange =>
      { s with exchange := exchange, lastCheck := s.lastCheck.executed s.exchange i e })
  | .expire i => (s.exchange.expire i).map (fun exchange => { s with exchange := exchange })
  | .poll script =>
    if ∀ a ∈ script.returned, ∃ f ∈ s.exchange.executed, a.fill = f.toKalshiFill then
      some (s.polled env script)
    else none

def sentRequest (cfg : Config) (s : Trading) : TradingStep → Option OrderRequest
  | .bankroll fetched clock later clientOrderId _ =>
    match s.call with
    | some (.fetchingBankroll signal currentPrice category) =>
      (approve cfg s.agent signal currentPrice category fetched clock later clientOrderId).2
    | _ => none
  | _ => none

inductive TradingView (cfg : Config) (env : IngestEnv) (s : Trading) : TradingStep → Trading → Prop
  | frame {step : TradingStep} {s' : Trading} (hbooked : s'.agent.db.booked = s.agent.db.booked)
      (hexchange : s'.exchange = s.exchange) (hcheck : s'.lastCheck = s.lastCheck) :
      TradingView cfg env s step s'
  | sends {fetched : Except ClientError ℚ} {clock later : Clock} {clientOrderId orderId : String}
      {signal : Signal} {currentPrice bankroll : ℚ} {category : Option String} {agent : Agent}
      {request : OrderRequest}
      (hsent : sentRequest cfg s (.bankroll fetched clock later clientOrderId orderId) = some request)
      (hprice : 0 < currentPrice)
      (hallowed :
        (sizeTrade cfg s.agent.db (signal.trade currentPrice category bankroll)).allowed = true)
      (hplace : (agent, request) = placeOrder s.agent signal currentPrice
        (sizeTrade cfg s.agent.db (signal.trade currentPrice category bankroll)).sizedContracts
        clientOrderId later) :
      TradingView cfg env s (.bankroll fetched clock later clientOrderId orderId)
        (s.send agent request orderId)
  | executes {i : ℕ} {e : PartialExecution} {exchange : Exchange}
      (h : s.exchange.execute i e = some exchange) :
      TradingView cfg env s (.execute i e)
        { s with exchange := exchange, lastCheck := s.lastCheck.executed s.exchange i e }
  | expires {i : ℕ} {exchange : Exchange} (h : s.exchange.expire i = some exchange) :
      TradingView cfg env s (.expire i) { s with exchange := exchange }
  | polls {script : ListFills}
      (hscript : ∀ a ∈ script.returned, ∃ f ∈ s.exchange.executed, a.fill = f.toKalshiFill) :
      TradingView cfg env s (.poll script) (s.polled env script)

theorem tradingStep_view {cfg : Config} {env : IngestEnv} {s s' : Trading} {step : TradingStep}
    (h : tradingStep cfg env s step = some s') : TradingView cfg env s step s' := by
  cases step with
  | handleSignal signal now =>
    simp only [tradingStep] at h
    split at h
    · cases h
      exact .frame (preflight_logs s.agent signal now).booked rfl rfl
    · cases h
  | market fetched clock =>
    simp only [tradingStep] at h
    split at h
    · next signal _ =>
      cases h
      exact .frame (quoteMarket_logs cfg s.agent signal fetched clock).booked rfl rfl
    · cases h
  | bankroll fetched clock later clientOrderId orderId =>
    simp only [tradingStep] at h
    split at h
    · next hcall =>
      split at h
      · next agent happrove =>
        cases h
        exact .frame (approve_none_logs happrove).booked rfl rfl
      · next agent request happrove =>
        cases h
        obtain ⟨_, _, hprice, bankroll, hallowed, hplace⟩ := approve_some happrove
        refine .sends ?_ hprice hallowed hplace
        simp only [sentRequest, hcall, happrove]
    · cases h
  | created outcome clock =>
    simp only [tradingStep] at h
    split at h
    · next request _ =>
      cases h
      exact .frame (recordOutcome_booked cfg s.agent request.clientOrderId outcome clock) rfl rfl
    · cases h
  | execute i e =>
    obtain ⟨exchange, hexchange, rfl⟩ := Option.map_eq_some_iff.mp h
    exact .executes hexchange
  | expire i =>
    obtain ⟨exchange, hexchange, rfl⟩ := Option.map_eq_some_iff.mp h
    exact .expires hexchange
  | poll script =>
    simp only [tradingStep] at h
    split_ifs at h with hscript
    cases h
    exact .polls hscript

theorem Trading.polled_books (s : Trading) (env : IngestEnv) (script : ListFills) :
    ∃ db', applyFills env.takerRate s.agent.db
        (script.committed env ⟨s.agent.db, 0, s.highWaterTs.getD 0⟩) = .ok db' ∧
      (s.polled env script).agent.db.booked = db'.booked := by
  have hpage := fetchLoop_committed env ⟨s.agent.db, 0, s.highWaterTs.getD 0⟩ script
  obtain ⟨db', hrun, hbooked, _⟩ := ingestPage_books rfl hpage
  refine ⟨db', hrun, ?_⟩
  rw [← hbooked]
  exact congrArg Db.booked (fetchAndApply_db env s.agent.db s.highWaterTs (fun _ => script))

/-- What the check has seen of the rows, and its own order with it, stays under the cap. -/
structure Capped (cap : ℚ) (c : CapCheck) (ex : Exchange) (db : Db) : Prop where
  rows : NonnegRows db
  exchange : ex.WellFormed
  order : ∀ i, c.order = some i → i < ex.working.length
  own : ∀ f ∈ c.own, f ∈ ex.executed
  seen : db.positions.sum c.seenOf + (c.ownOrder ex).cost db ≤ max cap 0 + (c.contracts : ℚ) / 20000

theorem NonnegRows.congr {db db' : Db} (h : NonnegRows db) (hbooked : db'.booked = db.booked) :
    NonnegRows db' := by
  obtain ⟨_, _, _, _, rfl⟩ := Db.of_booked hbooked
  exact h

theorem sizeTrade_closes {cfg : Config} {db : Db} {trade : Trade}
    (h : 0 < db.heldAgainst trade.marketTicker trade.side) :
    (sizeTrade cfg db trade).sizedContracts =
      min (db.heldAgainst trade.marketTicker trade.side) cfg.risk.perOrderMaxContracts := by
  unfold Db.heldAgainst at h ⊢
  unfold sizeTrade
  cases hfind : db.positions.find trade.marketTicker with
  | none =>
    rw [hfind] at h
    exact absurd h (lt_irrefl 0)
  | some existing =>
    simp only [hfind, Option.map_some, Option.getD_some, Position.against] at h ⊢
    by_cases hside : existing.side ≠ trade.side
    · rw [if_pos hside] at h ⊢
      rw [if_pos ⟨h, hside⟩]
      rfl
    · rw [if_neg hside] at h
      exact absurd h (lt_irrefl 0)

theorem sizeTrade_opens {cfg : Config} {db : Db} {trade : Trade} (hprice : 0 < trade.currentPrice)
    (hallowed : (sizeTrade cfg db trade).allowed = true)
    (h : db.heldAgainst trade.marketTicker trade.side = 0) :
    0 < (sizeTrade cfg db trade).sizedContracts ∧
      currentTotalExposureDollars db +
          trade.currentPrice * (sizeTrade cfg db trade).sizedContracts ≤
        cfg.risk.maxTotalExposureUsd := by
  rcases sizeTrade_allowed hprice hallowed with ⟨existing, hfind, hcount, hside, _⟩ | hopens
  · simp only [Db.heldAgainst, hfind, Option.map_some, Option.getD_some, Position.against,
      if_pos hside] at h
    omega
  · exact hopens

/-- Booking a buy adds to what has been seen of its row the cost of the check's own order at most. -/
theorem Unseen.book_seen {u : Unseen} {own : Bool} {before moved : Position} {held : ℤ}
    {fill : KalshiFill} (hcost : 0 ≤ fill.price * before.opened fill)
    (h : moved.exposure ≤ (if before.paired fill < before.count then before.exposure else 0) +
      fill.price * before.opened fill + (if before.opened fill = 0 then 0 else (held : ℚ) / 20000)) :
    max (moved.exposure - (u.book own before held fill).dollars) 0 ≤
      (if before.paired fill < before.count then max (before.exposure - u.dollars) 0 else 0) +
        (if own then fill.price * before.opened fill else 0) := by
  have hown : (0 : ℚ) ≤ if own then fill.price * before.opened fill else 0 := by
    split_ifs
    · exact hcost
    · exact le_rfl
  have hkept : (0 : ℚ) ≤
      if before.paired fill < before.count then max (before.exposure - u.dollars) 0 else 0 := by
    split_ifs
    · exact le_max_right _ _
    · exact le_rfl
  refine max_le ?_ (add_nonneg hkept hown)
  have hstart : (if before.paired fill < before.count then before.exposure else 0) -
      (if before.paired fill < before.count then u else nothing).dollars ≤
        if before.paired fill < before.count then max (before.exposure - u.dollars) 0 else 0 := by
    split_ifs
    · exact le_max_left _ _
    · simp [dollars, nothing]
  have hbook : (u.book own before held fill).dollars =
      (if before.paired fill < before.count then u else nothing).dollars +
        (if before.opened fill = 0 then 0 else
          (if own then 0 else fill.price * before.opened fill) + (held : ℚ) / 20000) := by
    unfold book
    dsimp only
    split_ifs <;> simp [dollars] <;> ring
  rw [hbook]
  by_cases hopened : before.opened fill = 0
  · rw [if_pos hopened]
    rw [if_pos hopened, hopened, Int.cast_zero, mul_zero] at h
    linarith
  · rw [if_neg hopened] at h ⊢
    cases own with
    | true =>
      simp only [if_true] at hown ⊢
      linarith
    | false =>
      simp only [Bool.false_eq_true, if_false] at hown ⊢
      linarith

namespace CapCheck
variable {c : CapCheck} {ex : Exchange} {db db' : Db}

theorem seenOf_add_unseenOf (c : CapCheck) (p : Position) : c.seenOf p + c.unseenOf p = p.exposure := by
  unfold seenOf unseenOf
  rcases le_total p.exposure (c.unseen p.marketTicker).dollars with hle | hge
  · rw [min_eq_left hle, max_eq_right (by linarith), zero_add]
  · rw [min_eq_right hge, max_eq_left (by linarith), sub_add_cancel]

theorem exposure_eq (c : CapCheck) (db : Db) : currentTotalExposureDollars db =
    db.positions.sum c.seenOf + db.positions.sum c.unseenOf := by
  unfold currentTotalExposureDollars KeyedTable.sum
  induction db.positions.rows with
  | nil => simp
  | cons p ps ih =>
    have hrow := c.seenOf_add_unseenOf p
    simp only [List.map_cons, List.sum_cons]
    linarith

theorem ownOrder_take (horder : ∀ i, c.order = some i → i < ex.working.length) (orderId : String)
    (request : OrderRequest) : c.ownOrder (ex.take orderId request) = c.ownOrder ex := by
  unfold ownOrder Exchange.take
  cases hi : c.order with
  | none => rfl
  | some i => rw [Option.bind_some, Option.bind_some, List.getElem?_append_left (horder i hi)]

theorem ownOrder_cut_other {i : ℕ} {order' : WorkingOrder} {fills : List TimedFill}
    (h : c.order ≠ some i) : c.ownOrder (ex.cut i order' fills) = c.ownOrder ex := by
  unfold ownOrder Exchange.cut
  cases hj : c.order with
  | none => rfl
  | some j =>
    have hne : i ≠ j := fun heq => h (heq ▸ hj)
    rw [Option.bind_some, Option.bind_some, List.getElem?_set_ne hne]

theorem ownOrder_cut {i : ℕ} {order order' : WorkingOrder} {fills : List TimedFill}
    (h : c.order = some i) (hi : ex.working[i]? = some order) :
    { c with own := c.own ++ fills }.ownOrder (ex.cut i order' fills) =
      (c.ownOrder ex).cut 0 order' fills := by
  obtain ⟨hlength, _⟩ := List.getElem?_eq_some_iff.mp hi
  unfold ownOrder Exchange.cut
  rw [h, Option.bind_some, Option.bind_some, hi, List.getElem?_set_self hlength]
  rfl

theorem seenOf_bookFill_other {fill : KalshiFill} {p : Position} (h : p.marketTicker ≠ fill.ticker) :
    (c.bookFill db db' fill).seenOf p = c.seenOf p := by
  unfold seenOf bookFill
  dsimp only
  rw [Function.update_of_ne h]

/-- Booking a buy adds to what is seen of its row the cost of the check's own order at most. -/
theorem seenOf_bookFill {fill : KalshiFill} {moved : Position}
    (hticker : moved.marketTicker = fill.ticker) (hn : 1 ≤ fill.count) (hprice : 0 ≤ fill.price)
    (h : moved.exposure ≤ (if (db.positionFor fill).paired fill < (db.positionFor fill).count
        then (db.positionFor fill).exposure else 0) + fill.price * (db.positionFor fill).opened fill +
      (if (db.positionFor fill).opened fill = 0 then 0 else (db'.held fill.ticker : ℚ) / 20000)) :
    (c.bookFill db db' fill).seenOf moved ≤
      ((db.positions.find moved.marketTicker).map c.seenOf).getD 0 +
        (if c.isOwn fill then fill.price * (db.positionFor fill).opened fill else 0) := by
  have hcost : 0 ≤ fill.price * (db.positionFor fill).opened fill :=
    mul_nonneg hprice (by exact_mod_cast (db.positionFor fill).opened_nonneg fill)
  have hpart := @Unseen.book_seen (c.unseen fill.ticker) (c.isOwn fill) _ _ _ _ hcost h
  unfold seenOf bookFill
  dsimp only
  rw [hticker, Function.update_self]
  refine hpart.trans (add_le_add_left ?_ _)
  unfold Db.positionFor
  cases hfind : db.positions.find fill.ticker with
  | none =>
    have hpaired : (newPosition fill).paired fill = 0 := Position.paired_of_eq rfl (by omega)
    have hflat : ¬ 0 < (newPosition fill).count := lt_irrefl 0
    rw [Option.getD_none, hpaired, if_neg hflat]
    exact le_rfl
  | some old =>
    simp only [Option.getD_some, Option.map_some, KeyedTable.find_key hfind]
    split_ifs
    · exact le_rfl
    · exact le_max_right _ _

/-- A check that has missed nothing sees the total exposure. -/
theorem sum_seenOf (hrows : NonnegRows db) (h : ∀ t, c.unseen t = .nothing) :
    db.positions.sum c.seenOf = currentTotalExposureDollars db := by
  unfold currentTotalExposureDollars KeyedTable.sum
  refine congrArg List.sum (List.map_congr_left fun p hp => ?_)
  obtain ⟨hheld, havg⟩ := hrows p hp
  have hexposure : 0 ≤ p.exposure := mul_nonneg havg (by exact_mod_cast hheld)
  simp [seenOf, h, Unseen.dollars, Unseen.nothing, hexposure]

theorem ownOrder_of_new (ex : Exchange) (orderId : String) (request : OrderRequest)
    (horder : c.order = some ex.working.length) (hown : c.own = []) :
    c.ownOrder (ex.take orderId request) = ⟨[⟨orderId, request, max request.count 0⟩], []⟩ := by
  simp [ownOrder, Exchange.take, horder, hown]

end CapCheck

namespace Capped
variable {cap rate δ : ℚ} {c : CapCheck} {ex : Exchange} {db db' : Db}

theorem congr (h : Capped cap c ex db) (hbooked : db'.booked = db.booked) : Capped cap c ex db' := by
  obtain ⟨_, _, _, _, rfl⟩ := Db.of_booked hbooked
  exact ⟨h.rows, h.exchange, h.order, h.own, h.seen⟩

theorem own_cost_nonneg (h : Capped cap c ex db) :
    ∀ f ∈ (c.ownOrder ex).executed, 0 ≤ f.cost := by
  intro f hf
  obtain ⟨_, hcount, hprice⟩ := h.exchange.executed f (h.own f hf)
  exact TimedFill.cost_nonneg hcount hprice

theorem ownOrder_nonneg (h : Capped cap c ex db) : 0 ≤ (c.ownOrder ex).cost db := by
  refine Exchange.inFlight_nonneg (fun order horder => ?_) h.own_cost_nonneg
  obtain ⟨i, _, hi⟩ := Option.bind_eq_some_iff.mp (Option.mem_toList.mp horder)
  obtain ⟨_, hlimit, hremaining⟩ := h.exchange.working order (List.mem_of_getElem? hi)
  exact mul_nonneg hlimit (by exact_mod_cast hremaining)

theorem cut {i : ℕ} {order order' : WorkingOrder} {fills : List TimedFill} (h : Capped cap c ex db)
    (hi : ex.working[i]? = some order) (hcut : Cuts order order' fills) :
    Capped cap (if c.order = some i then { c with own := c.own ++ fills } else c)
      (ex.cut i order' fills) db := by
  have hexchange := h.exchange.cut hi hcut
  have hlength : (ex.cut i order' fills).working.length = ex.working.length := List.length_set
  split_ifs with hown
  · refine ⟨h.rows, hexchange, fun j hj => ?_, fun f hf => ?_, ?_⟩
    · rw [hlength]
      exact h.order j hj
    · rcases List.mem_append.mp hf with hold | hnew
      · exact List.mem_append_left _ (h.own f hold)
      · exact List.mem_append_right _ hnew
    · have hfirst : (c.ownOrder ex).working[0]? = some order := by
        unfold CapCheck.ownOrder
        rw [hown, Option.bind_some, hi]
        rfl
      have hless : ((c.ownOrder ex).cut 0 order' fills).cost db ≤ (c.ownOrder ex).cost db := by
        refine Exchange.inFlight_cut_le hfirst (fun f hf => ?_) hcut.cost
        obtain ⟨_, _, _, _, hcount, hprice⟩ := hcut.executed f hf
        exact TimedFill.cost_nonneg hcount hprice
      rw [CapCheck.ownOrder_cut hown hi]
      have hseen := h.seen
      have hsame : db.positions.sum ({ c with own := c.own ++ fills } : CapCheck).seenOf =
          db.positions.sum c.seenOf := rfl
      rw [hsame]
      dsimp only
      linarith
  · refine ⟨h.rows, hexchange, fun j hj => ?_, fun f hf => ?_, ?_⟩
    · rw [hlength]
      exact h.order j hj
    · exact List.mem_append_left _ (h.own f hf)
    · rw [CapCheck.ownOrder_cut_other hown]
      exact h.seen

theorem ownOrder_book (h : Capped cap c ex db) {a : Arrival} {f : TimedFill}
    (ha : a.fill = f.toKalshiFill) (happ : applyFill rate db a = .ok (db', δ))
    (hnew : db.hasFill a.lookupIdentity = false) :
    (c.ownOrder ex).cost db' + (if c.isOwn a.fill then a.fill.price * a.fill.count else 0) ≤
      (c.ownOrder ex).cost db := by
  obtain ⟨_, _, hmono⟩ := book_hasFill ha happ hnew
  split_ifs with hown
  · obtain ⟨g, hg, hsame⟩ := List.any_eq_true.mp hown
    have hga : a.fill = g.toKalshiFill := (of_decide_eq_true hsame).symm
    obtain ⟨hunseen, hstored, _⟩ := book_hasFill hga happ hnew
    have hcost : a.fill.price * a.fill.count = g.cost := by rw [TimedFill.cost, hga]
    rw [hcost]
    exact Exchange.inFlight_book_le hg h.own_cost_nonneg hmono hunseen hstored
  · rw [add_zero]
    exact Exchange.inFlight_stored_le h.own_cost_nonneg hmono

theorem book {a : Arrival} {f : TimedFill} (h : Capped cap c ex db) (hf : f ∈ ex.executed)
    (ha : a.fill = f.toKalshiFill) (happ : applyFill rate db a = .ok (db', δ))
    (hnew : db.hasFill a.lookupIdentity = false) :
    Capped cap (c.bookFill db db' a.fill) ex db' := by
  obtain ⟨hbuy, hcount, hprice⟩ := h.exchange.executed f hf
  have hn : 1 ≤ a.fill.count := ha ▸ hcount
  have hfill : 0 ≤ a.fill.price := ha ▸ hprice
  obtain ⟨hrows', moved, hput, hticker, hexposure⟩ :=
    applyFill_exposure happ hnew h.rows (ha ▸ hbuy) hn hfill
  have hagree : ∀ p : Position, p.marketTicker ≠ moved.marketTicker →
      (c.bookFill db db' a.fill).seenOf p = c.seenOf p :=
    fun p hother => CapCheck.seenOf_bookFill_other (hticker ▸ hother)
  have hmoved := CapCheck.seenOf_bookFill hticker hn hfill (c := c) hexposure
  refine ⟨hrows', h.exchange, h.order, h.own, ?_⟩
  have hown := h.ownOrder_book ha happ hnew
  have hseen := h.seen
  have hsum := KeyedTable.sum_put_of_agree db.positions moved hagree
  have hpay : (if c.isOwn a.fill then a.fill.price * (db.positionFor a.fill).opened a.fill else 0 : ℚ) ≤
      if c.isOwn a.fill then a.fill.price * a.fill.count else 0 := by
    split_ifs
    · refine mul_le_mul_of_nonneg_left ?_ hfill
      exact_mod_cast Position.opened_le (positionFor_nonneg h.rows a.fill).1 (by omega)
    · exact le_rfl
  have hsame : (c.bookFill db db' a.fill).ownOrder ex = c.ownOrder ex := rfl
  have hcontracts : (c.bookFill db db' a.fill).contracts = c.contracts := rfl
  rw [hput, hsum, hsame, hcontracts]
  linarith

theorem bookAll {as : List Arrival} (h : Capped cap c ex db)
    (has : ∀ a ∈ as, ∃ f ∈ ex.executed, a.fill = f.toKalshiFill)
    (hrun : applyFills rate db as = .ok db') : Capped cap (c.book rate db as) ex db' := by
  induction as generalizing db c with
  | nil =>
    cases hrun
    exact h
  | cons a as ih =>
    obtain ⟨db₁, δ, happ, hrest⟩ := applyFills_cons_ok.mp hrun
    obtain ⟨f, hf, ha⟩ := has a List.mem_cons_self
    have has' := fun b hb => has b (List.mem_cons_of_mem a hb)
    rw [CapCheck.book, happ]
    dsimp only
    split_ifs with hdup
    · rcases applyFill_cases happ with ⟨_, rfl, _⟩ | ⟨hnew, _⟩
      · exact ih h has' hrest
      · exact absurd (hnew.symm.trans hdup) Bool.false_ne_true
    · exact ih (h.book hf ha happ (Bool.eq_false_iff.mpr hdup)) has' hrest

end Capped

namespace Trading

def Capped (cfg : Config) (s : Trading) : Prop :=
  KalshiAgent.Capped cfg.risk.maxTotalExposureUsd s.lastCheck s.exchange s.agent.db

namespace Capped
variable {cfg : Config} {env : IngestEnv} {s : Trading}

theorem poll {script : ListFills} (h : s.Capped cfg)
    (hscript : ∀ a ∈ script.returned, ∃ f ∈ s.exchange.executed, a.fill = f.toKalshiFill) :
    (s.polled env script).Capped cfg := by
  obtain ⟨db', hrun, hdb⟩ := s.polled_books env script
  have hall := KalshiAgent.Capped.bookAll h
    (fun a ha => hscript a (mem_returned_of_committed ha)) hrun
  exact hall.congr hdb

/-- The check has seen the ingested exposure, and the limit is the ask up to half a unit. -/
theorem send {signal : Signal} {currentPrice bankroll : ℚ} {category : Option String}
    {clientOrderId orderId : String} {later : Clock} {agent : Agent} {request : OrderRequest}
    (h : s.Capped cfg) (hprice : 0 < currentPrice)
    (hallowed :
      (sizeTrade cfg s.agent.db (signal.trade currentPrice category bankroll)).allowed = true)
    (hplace : (agent, request) = placeOrder s.agent signal currentPrice
      (sizeTrade cfg s.agent.db (signal.trade currentPrice category bankroll)).sizedContracts
      clientOrderId later) :
    (s.send agent request orderId).Capped cfg := by
  obtain ⟨hagent, hticker, hside, hbuy, hcount, hlimit⟩ := placeOrder_request hplace
  have hcheap : 0 ≤ request.limit.toDecimal := by
    rw [hlimit]
    exact toDecimal_priceDecimalToStr_nonneg hprice.le
  have htook := h.exchange.take orderId hbuy hcheap
  unfold Trading.send
  dsimp only
  split_ifs with hopens
  · rw [hticker, hside] at hopens
    obtain ⟨hpos, hcap⟩ := sizeTrade_opens hprice hallowed hopens
    rw [← hcount] at hpos hcap
    refine @KalshiAgent.Capped.congr _ _ _ s.agent.db _ ⟨h.rows, htook, ?_, ?_, ?_⟩ hagent
    · rintro i hi
      cases hi
      simp [Exchange.take]
    · exact List.forall_mem_nil _
    · have hcost : Exchange.cost ⟨[⟨orderId, request, max request.count 0⟩], []⟩ s.agent.db =
          request.limit.toDecimal * request.count := by
        simp [Exchange.cost, Exchange.inFlight, Exchange.unstored, WorkingOrder.cost,
          max_eq_left hpos.le]
      have hround : (priceDecimalToStr currentPrice).toDecimal * (request.count : ℚ) ≤
          currentPrice * request.count + (request.count : ℚ) / 20000 :=
        rounded_mul_le currentPrice (by exact_mod_cast hpos.le)
      have hcap' : currentTotalExposureDollars s.agent.db + currentPrice * request.count ≤
          max cfg.risk.maxTotalExposureUsd 0 := hcap.trans (le_max_left _ 0)
      rw [CapCheck.sum_seenOf h.rows (fun _ => rfl), CapCheck.ownOrder_of_new _ _ _ rfl rfl, hcost,
        hlimit]
      dsimp only
      linarith
  · refine @KalshiAgent.Capped.congr _ _ _ s.agent.db _
      ⟨h.rows, htook, fun i hi => ?_, h.own, ?_⟩ hagent
    · exact (h.order i hi).trans_le (by simp [Exchange.take])
    · dsimp only
      rw [CapCheck.ownOrder_take h.order]
      exact h.seen

theorem step {s' : Trading} {step : TradingStep} (h : s.Capped cfg)
    (hstep : tradingStep cfg env s step = some s') : s'.Capped cfg := by
  cases tradingStep_view hstep with
  | frame hbooked hexchange hcheck =>
    unfold Trading.Capped
    rw [hexchange, hcheck]
    exact KalshiAgent.Capped.congr h hbooked
  | sends hsent hprice hallowed hplace => exact h.send hprice hallowed hplace
  | @executes i e exchange hexchange =>
    obtain ⟨order, order', hi, rfl, hcut⟩ := Exchange.execute_cuts hexchange
    have hown : s.lastCheck.executed s.exchange i e = if s.lastCheck.order = some i then
        { s.lastCheck with own := s.lastCheck.own ++ [order.fill e] } else s.lastCheck := by
      rw [CapCheck.executed, hi]
      rfl
    unfold Trading.Capped
    dsimp only
    rw [hown]
    exact KalshiAgent.Capped.cut h hi hcut
  | expires hexchange =>
    obtain ⟨order, order', hi, rfl, hcut⟩ := Exchange.expire_cuts h.exchange hexchange
    have hcut' := KalshiAgent.Capped.cut h hi hcut
    rwa [List.append_nil, ite_self] at hcut'
  | polls hscript => exact h.poll hscript

theorem start (cfg : Config) (agent : Agent) (highWaterTs : Option ℤ) :
    (Trading.start agent highWaterTs).Capped cfg := by
  refine ⟨?_, ⟨?_, ?_⟩, ?_, ?_, ?_⟩
  · exact List.forall_mem_nil _
  · exact List.forall_mem_nil _
  · exact List.forall_mem_nil _
  · exact fun i hi => nomatch hi
  · exact List.forall_mem_nil _
  · simp [Trading.start, CapCheck.start, CapCheck.ownOrder, Exchange.cost, Exchange.inFlight,
      Exchange.unstored]

end Capped
end Trading

/-- The claimed bound: the cap and half a unit for each open contract. -/
def WithinCap (cfg : Config) (s : Trading) : Prop :=
  currentTotalExposureDollars s.agent.db ≤
    cfg.risk.maxTotalExposureUsd + ((s.agent.db.positions.sum Position.count : ℤ) : ℚ) / 20000

instance (cfg : Config) (s : Trading) : Decidable (WithinCap cfg s) :=
  inferInstanceAs (Decidable (_ ≤ _))

def smallCap : Config :=
  { Config.example (.fixed 0) with
    risk := { (Config.example (.fixed 0)).risk with
      maxTotalExposureUsd := 1 / 2, perOrderMaxContracts := 100 } }

def yesSignal (ticker : Ticker) : Signal := { buySignal with marketTicker := ticker }

def buyAt (ticker : Ticker) (ask : ℚ) (id : String) : List TradingStep :=
  [.handleSignal (yesSignal ticker) 0,
    .market (.ok ⟨none, some "active", some (.decimal ask), none⟩) ⟨0, 0⟩,
    .bankroll (.ok 100) ⟨0, 0⟩ ⟨0, 0⟩ id id, .created (.ok ⟨id, "executed"⟩) ⟨0, 0⟩]

def executed (count : ℤ) (price : ℚ) (time : Time) : PartialExecution :=
  ⟨count, price, none, none, true, time⟩

def yesFill (orderId : String) (ticker : Ticker) (count : ℤ) (price : ℚ) (time : Time) :
    TimedFill :=
  { boughtAt orderId time with
    tradeId := none, ticker := ticker, count := count, yesPriceDollars := some (.decimal price) }

def overlappingRun : List TradingStep :=
  buyAt "FOO" (9 / 2000) "o1" ++ buyAt "BAR" (9 / 2000) "o2" ++
    [.execute 0 (executed 100 (9 / 2000) 1000000), .execute 1 (executed 100 (9 / 2000) 2000000),
      .poll (.last [(yesFill "o1" "FOO" 100 (9 / 2000) 1000000).arrival,
        (yesFill "o2" "BAR" 100 (9 / 2000) 2000000).arrival])]

def roundingRun : List TradingStep :=
  buyAt "FOO" (9 / 2000) "o1" ++
    [.execute 0 (executed 100 (9 / 2000) 1000000),
      .poll (.last [(yesFill "o1" "FOO" 100 (9 / 2000) 1000000).arrival])] ++
    buyAt "FOO" (21 / 2000) "o2" ++
    [2000000, 3000000, 4000000, 5000000].map
      (fun time => .execute 1 (executed 1 (21 / 2000) time)) ++
    [.poll (.last ([2000000, 3000000, 4000000, 5000000].map
      (fun time => (yesFill "o2" "FOO" 1 (21 / 2000) time).arrival)))]

end KalshiAgent

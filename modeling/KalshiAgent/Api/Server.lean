import KalshiAgent.Api.Auth
import KalshiAgent.Api.Dashboard
import KalshiAgent.Lib.Session
import KalshiAgent.Safety.HaltFile

/-! The routes of the HTTP API behind their guards. Rows are inserted in the order of their
`created_at`, so the latest come last. -/

namespace KalshiAgent
open Session

structure App where
  db : Db
  files : HaltFiles

structure ApiConfig where
  controlBearerToken : String
  mode : String
  displayTz : Tz
  codec : JsonText
  python : Binary64.Summation

structure Moment where
  now : Time
  isoformat : String
  uptimeSeconds : ℕ
  dbOk : Bool

inductive Route
  | health
  | positions
  | trades (limit : ℤ)
  | pnl (period : PnlPeriod)
  | equityCurve (days : ℤ)
  | market (ticker : Ticker)
  | halt (payload : List (String × Json))
  | resume
  | reconcile
  | dashboard

structure HttpRequest where
  caller : Caller
  route : Route

structure HealthView where
  mode : String
  uptimeSeconds : ℕ
  killSwitchEngaged : Bool
  dbOk : Bool
  nowUtc : Time

structure DecisionSummary where
  modelProbability : Option ℚ
  rationale : Option String
  strategy : Option String

structure TradeView where
  order : Order
  decision : Option DecisionSummary

structure EquityCurve where
  days : List ℤ
  realizedPnl : List ℚ
  fees : List ℚ

structure MarketView where
  ticker : Ticker
  position : Option (Side × ℤ × Dollars4)
  lastModelProbability : Option ℚ
  lastDecisionAt : Option Time

structure OrderLine where
  marketTicker : Ticker
  side : Side
  count : ℤ
  priceDollars : Dollars4
  status : String

structure DecisionLine where
  createdAt : Time
  strategy : String
  marketTicker : Ticker
  side : Side
  modelProbability : ℚ
  accepted : Bool
  text : String

structure EventLine where
  kind : String
  level : String
  message : String

structure DashboardPage where
  mode : String
  uptimeSeconds : ℕ
  killSwitchEngaged : Bool
  now : Time
  realizedPnlTotal : ℚ
  todayPnl : ℚ
  openExposure : ℚ
  positions : List Position
  orders : List OrderLine
  decisions : List DecisionLine
  events : List EventLine
  chart : EquityCurve

inductive Reply
  | error (e : HttpError)
  | health (view : HealthView)
  | positions (rows : List Position)
  | trades (rows : List TradeView)
  | pnl (report : PnlReport)
  | equityCurve (curve : EquityCurve)
  | market (view : MarketView)
  | halted (reason : Json)
  | resumed (disengaged : Bool)
  | reconciled (result : Json)
  | page (view : DashboardPage)

def lastRows {α : Type} (n : ℕ) (rows : List α) : List α := rows.reverse.take n

def sqlLimit {α : Type} (n : ℤ) (rows : List α) : List α :=
  if n < 0 then rows else rows.take n.toNat

def curve (rows : List PnlDaily) : EquityCurve :=
  ⟨rows.map PnlDaily.day, rows.map PnlDaily.realizedPnl, rows.map PnlDaily.fees⟩

def healthView (cfg : ApiConfig) (app : App) (moment : Moment) : HealthView :=
  ⟨cfg.mode, moment.uptimeSeconds, app.files.isEngaged, moment.dbOk, moment.now⟩

def decisionSummary (db : Db) : Option ℕ → Option DecisionSummary
  | none | some 0 => none
  | some (n + 1) =>
    let d := db.decisions[n]?
    some ⟨d.map Decision.modelProbability, d.map Decision.rationale, d.map Decision.strategy⟩

def trades (db : Db) (limit : ℤ) : List TradeView :=
  (sqlLimit limit db.orders.reverse).map (fun o => ⟨o, decisionSummary db o.decisionId⟩)

/-- The first day is a date in UTC, the days of the rows are local dates. -/
def equityRows (db : Db) (now : Time) (days : ℤ) : List PnlDaily :=
  let cutoffDate := (now - timedeltaDays days) / timedeltaDays 1
  db.pnlDaily.descending.rows.reverse.filter (fun row => cutoffDate ≤ row.day)

def equityCurve (db : Db) (now : Time) (days : ℤ) : EquityCurve := curve (equityRows db now days)

def market (db : Db) (ticker : Ticker) : MarketView :=
  let lastDecision := db.decisions.reverse.find? (fun d => d.marketTicker = ticker)
  { ticker := ticker
    position := (db.positions.find ticker).map (fun p => (p.side, p.count, p.avgPriceDollars))
    lastModelProbability := lastDecision.map Decision.modelProbability
    lastDecisionAt := lastDecision.map Decision.createdAt }

def Decision.shown (d : Decision) : String :=
  match d.rejectionReason with
  | none | some "" => d.rationale
  | some reason => reason

def floatOpenExposure (python : Binary64.Summation) (openPositions : List Position) : ℚ :=
  Binary64.repr (python.sum (openPositions.map (fun p =>
    Binary64.mul (Binary64.round p.avgPriceDollars.toDecimal) p.count)))

def dashboardPage (cfg : ApiConfig) (app : App) (moment : Moment) : DashboardPage :=
  let openPositions := app.db.positions.rows.filter (fun p => p.count ≠ 0)
  { mode := cfg.mode
    uptimeSeconds := moment.uptimeSeconds
    killSwitchEngaged := app.files.isEngaged
    now := moment.now
    realizedPnlTotal := floatRealizedTotal cfg.python app.db
    todayPnl := dashboardTodayPnl cfg.python app.db cfg.displayTz moment.now
    openExposure := floatOpenExposure cfg.python openPositions
    positions := openPositions
    orders := (lastRows 15 app.db.orders).map (fun o =>
      ⟨o.marketTicker, o.side, o.count, o.priceDollars, o.status⟩)
    decisions := (lastRows 15 app.db.decisions).map (fun d =>
      ⟨d.createdAt, d.strategy, d.marketTicker, d.side, d.modelProbability, d.accepted,
        String.ofList (d.shown.toList.take 80)⟩)
    events := (lastRows 15 app.db.events).map (fun e =>
      ⟨e.kind, e.level, String.ofList (e.message.toList.take 120)⟩)
    chart := curve (dashboardDaily app.db) }

def haltReason (payload : List (String × Json)) : Json :=
  (payload.lookup "reason").getD (.str "manual_http")

def routeGuard (cfg : ApiConfig) (caller : Caller) : Route → Except HttpError Unit
  | .health | .dashboard => .ok ()
  | .positions | .trades _ | .pnl _ | .equityCurve _ | .market _ =>
    requireObserverAuth cfg.controlBearerToken caller
  | .halt _ | .resume | .reconcile => requireControlAuth cfg.controlBearerToken caller

/-- A route behind its guard. `triggerReconcile` is what the reconciler and the ingestor make of
the state, with its result or what it raises. -/
def answer (cfg : ApiConfig) (app : App) (moment : Moment)
    (triggerReconcile : App → App × Except PyError Json) : Route → App × Reply
  | .health => (app, .health (healthView cfg app moment))
  | .positions => (app, .positions app.db.positions.rows)
  | .trades limit => (app, .trades (trades app.db limit))
  | .pnl period => (app, .pnl (pnl app.db cfg.displayTz moment.now period))
  | .equityCurve days => (app, .equityCurve (equityCurve app.db moment.now days))
  | .market ticker => (app, .market (market app.db ticker))
  | .halt payload =>
    let reason := haltReason payload
    let files := app.files.engage cfg.codec ⟨reason, "http", moment.isoformat, payload⟩
    ({ app with files := files }, .halted reason)
  | .resume =>
    let (files, ok) := app.files.disengage
    ({ app with files := files }, .resumed ok)
  | .reconcile =>
    match triggerReconcile app with
    | (app, .ok result) => (app, .reconciled result)
    | (app, .error e) => (app, .error (.raised e))
  | .dashboard => (app, .page (dashboardPage cfg app moment))

theorem days_ascending (db : Db) :
    db.pnlDaily.descending.rows.reverse.Pairwise (fun a b => a.day < b.day) :=
  List.pairwise_reverse.mpr db.pnlDaily.pairwise_descending

theorem filter_suffix {rows : List PnlDaily} (h : rows.Pairwise (fun a b => a.day < b.day))
    (cutoff : ℤ) : rows.filter (fun row => cutoff ≤ row.day) <:+ rows := by
  induction rows with
  | nil => exact List.suffix_rfl
  | cons row rows ih =>
    obtain ⟨hlater, hrows⟩ := List.pairwise_cons.mp h
    by_cases hrow : cutoff ≤ row.day
    · have hall : (row :: rows).filter (fun row => cutoff ≤ row.day) = row :: rows := by
        rw [List.filter_eq_self]
        intro r hr
        rcases List.mem_cons.mp hr with rfl | hr
        · exact decide_eq_true hrow
        · exact decide_eq_true (hrow.trans (hlater r hr).le)
      exact hall.symm ▸ List.suffix_rfl
    · rw [List.filter_cons_of_neg (by simpa using hrow)]
      exact (ih hrows).trans (List.suffix_cons row rows)

theorem take_reverse_suffix {α : Type} (n : ℕ) (rows : List α) :
    (rows.take n).reverse <:+ rows.reverse := by
  rw [List.reverse_suffix]
  exact List.take_prefix n rows

/-- The equity curve of the API and the chart of the dashboard are the latest days of one series:
the shorter one is the end of the longer one, whatever the clock and the number of days. -/
theorem curves_agree (db : Db) (now : Time) (days : ℤ) :
    (equityRows db now days).Pairwise (fun a b => a.day < b.day) ∧
      (equityRows db now days <:+ dashboardDaily db ∨ dashboardDaily db <:+ equityRows db now days) := by
  have hequity : equityRows db now days <:+ db.pnlDaily.descending.rows.reverse :=
    filter_suffix (days_ascending db) _
  have hdashboard : dashboardDaily db <:+ db.pnlDaily.descending.rows.reverse :=
    take_reverse_suffix 30 _
  exact ⟨(days_ascending db).sublist hequity.sublist,
    List.suffix_or_suffix_of_suffix hequity hdashboard⟩

/-- What happens to the service: a request, or anything that its other tasks and other programs do. -/
inductive ApiEvent
  | request (req : HttpRequest) (moment : Moment)
      (triggerReconcile : App → App × Except PyError Json)
  | other (f : App → App)

def serve (cfg : ApiConfig) (app : App) : ApiEvent → App × List (HttpRequest × Reply)
  | .other f => (f app, [])
  | .request req moment triggerReconcile =>
    match routeGuard cfg req.caller req.route with
    | .error e => (app, [(req, .error e)])
    | .ok () =>
      let (app, reply) := answer cfg app moment triggerReconcile req.route
      (app, [(req, reply)])

def Route.isControl : Route → Bool
  | .halt _ | .resume | .reconcile => true
  | _ => false

def holdsToken (cfg : ApiConfig) (caller : Caller) : Bool :=
  requireControlAuth cfg.controlBearerToken caller = .ok ()

def isOutsider (cfg : ApiConfig) (caller : Caller) : Bool :=
  !isLocalhost caller && !holdsToken cfg caller

/-- What may change the state: a control request that presents the token, and all but requests. -/
def ApiEvent.commands (cfg : ApiConfig) : ApiEvent → Bool
  | .other _ => true
  | .request req _ _ => req.route.isControl && holdsToken cfg req.caller

def ApiEvent.fromOutside (cfg : ApiConfig) : ApiEvent → Bool
  | .other _ => false
  | .request req _ _ => isOutsider cfg req.caller

/-- All of the service that an outsider's request meets: the two routes without a guard, and whether
the token is ASCII. -/
structure PublicView where
  health : HealthView
  page : DashboardPage
  asciiToken : Bool

def publicView (cfg : ApiConfig) (app : App) (moment : Moment) : PublicView :=
  ⟨healthView cfg app moment, dashboardPage cfg app moment, isAscii cfg.controlBearerToken⟩

/-- A wrong token is compared with the right one, which raises unless both are ASCII. -/
def refusal (detail : String) (asciiToken : Bool) (caller : Caller) : HttpError :=
  match bearer caller.authorization with
  | none => .unauthorized detail
  | some token => if isAscii token && asciiToken then .unauthorized detail else .raised .typeError

def outsiderReply (view : PublicView) (req : HttpRequest) : Reply :=
  match req.route with
  | .health => .health view.health
  | .dashboard => .page view.page
  | .positions | .trades _ | .pnl _ | .equityCurve _ | .market _ =>
    .error (refusal "bearer token required for remote access" view.asciiToken req.caller)
  | .halt _ | .resume | .reconcile =>
    .error (refusal "invalid bearer token" view.asciiToken req.caller)

def outsiderSees (cfg : ApiConfig) (app : App) : ApiEvent → List (HttpRequest × PublicView)
  | .other _ => []
  | .request req moment _ =>
    if isOutsider cfg req.caller then [(req, publicView cfg app moment)] else []

/-- No request of a run changes the state but the control requests with the token; the others are
answered as if the outsiders were not there; and the outsiders' own answers are made of the public
view alone. -/
structure Isolated (cfg : ApiConfig) (app : App) (events : List ApiEvent) : Prop where
  state : (run (serve cfg) app events).1 = (run (serve cfg) app (events.filter (·.commands cfg))).1
  insiders : (run (serve cfg) app events).2.filter (fun r => !isOutsider cfg r.1.caller) =
    (run (serve cfg) app (events.filter (fun event => !event.fromOutside cfg))).2
  outsiders : (run (serve cfg) app events).2.filter (fun r => isOutsider cfg r.1.caller) =
    (glimpses (serve cfg) (outsiderSees cfg) app events).map
      (fun seen => (seen.1, outsiderReply seen.2 seen.1))

theorem requireToken_refusal (detail expectedToken : String) (caller : Caller)
    (h : requireToken detail expectedToken caller ≠ .ok ()) :
    requireToken detail expectedToken caller =
      .error (refusal detail (isAscii expectedToken) caller) := by
  unfold requireToken at h ⊢
  unfold refusal
  cases hbearer : bearer caller.authorization with
  | none => rfl
  | some token =>
    rw [hbearer] at h
    dsimp only at h ⊢
    unfold compareDigest at h ⊢
    by_cases hascii : isAscii token = true ∧ isAscii expectedToken = true
    · rw [if_pos hascii] at h ⊢
      have hboth : (isAscii token && isAscii expectedToken) = true := by
        rw [hascii.1, hascii.2]
        rfl
      rw [if_pos hboth]
      by_cases hsame : token = expectedToken
      · rw [decide_eq_true hsame] at h
        exact absurd rfl h
      · rw [decide_eq_false hsame]
    · have hnot : ¬ (isAscii token && isAscii expectedToken) = true := by
        rwa [Bool.and_eq_true]
      rw [if_neg hascii, if_neg hnot]

theorem holdsToken_iff (cfg : ApiConfig) (detail : String) (caller : Caller) :
    holdsToken cfg caller = true ↔ requireToken detail cfg.controlBearerToken caller = .ok () := by
  unfold holdsToken requireControlAuth
  rw [decide_eq_true_iff, requireToken_eq_ok, requireToken_eq_ok]

theorem serve_answers {cfg : ApiConfig} {app : App} {event : ApiEvent} {r : HttpRequest × Reply}
    (h : r ∈ (serve cfg app event).2) :
    ∃ moment triggerReconcile, event = .request r.1 moment triggerReconcile := by
  cases event with
  | other f => exact absurd h List.not_mem_nil
  | request req moment triggerReconcile =>
    unfold serve at h
    dsimp only at h
    split at h
    · rw [List.mem_singleton.mp h]
      exact ⟨moment, triggerReconcile, rfl⟩
    · rw [List.mem_singleton.mp h]
      exact ⟨moment, triggerReconcile, rfl⟩

theorem serve_idle (cfg : ApiConfig) (app : App) (event : ApiEvent)
    (h : event.commands cfg = false) : (serve cfg app event).1 = app := by
  cases event with
  | other f => cases h
  | request req moment triggerReconcile =>
    obtain ⟨caller, route⟩ := req
    unfold ApiEvent.commands at h
    dsimp only at h
    have hguard : route.isControl = true →
        requireControlAuth cfg.controlBearerToken caller ≠ .ok () := by
      intro hcontrol hopen
      rw [hcontrol, Bool.true_and] at h
      exact of_decide_eq_false h hopen
    unfold serve
    dsimp only
    split
    · rfl
    · cases route with
      | halt payload => exact absurd ‹_› (hguard rfl)
      | resume => exact absurd ‹_› (hguard rfl)
      | reconcile => exact absurd ‹_› (hguard rfl)
      | _ => rfl

theorem commands_of_fromOutside {cfg : ApiConfig} {event : ApiEvent}
    (h : event.fromOutside cfg = true) : event.commands cfg = false := by
  cases event with
  | other f => cases h
  | request req moment triggerReconcile =>
    have hnone : holdsToken cfg req.caller = false := by
      have hboth : (!isLocalhost req.caller && !holdsToken cfg req.caller) = true := h
      rw [Bool.and_eq_true, Bool.not_eq_true'] at hboth
      simpa using hboth.2
    unfold ApiEvent.commands
    dsimp only
    rw [hnone, Bool.and_false]

/-- The guards have seen to it that an outsider's answer is made of the public view. -/
theorem serve_outsider (cfg : ApiConfig) (app : App) (req : HttpRequest) (moment : Moment)
    (triggerReconcile : App → App × Except PyError Json) (h : isOutsider cfg req.caller = true) :
    (serve cfg app (.request req moment triggerReconcile)).2 =
      [(req, outsiderReply (publicView cfg app moment) req)] := by
  obtain ⟨caller, route⟩ := req
  have houtside : isLocalhost caller = false ∧ holdsToken cfg caller = false := by
    have hboth : (!isLocalhost caller && !holdsToken cfg caller) = true := h
    rw [Bool.and_eq_true] at hboth
    simpa using hboth
  have hrefused : ∀ detail, requireToken detail cfg.controlBearerToken caller =
      .error (refusal detail (isAscii cfg.controlBearerToken) caller) := by
    intro detail
    apply requireToken_refusal
    rw [ne_eq, ← holdsToken_iff, houtside.2]
    exact Bool.false_ne_true
  have hcontrol := hrefused "invalid bearer token"
  have hobserver : requireObserverAuth cfg.controlBearerToken caller = _ :=
    (if_neg (by rw [houtside.1]; exact Bool.false_ne_true)).trans
      (hrefused "bearer token required for remote access")
  cases route with
  | health => rfl
  | dashboard => rfl
  | halt payload | resume | reconcile =>
    unfold serve routeGuard requireControlAuth outsiderReply
    dsimp only
    rw [hcontrol]
    rfl
  | positions | trades limit | pnl period | equityCurve days | market ticker =>
    unfold serve routeGuard outsiderReply
    dsimp only
    rw [hobserver]
    rfl

theorem serve_sees (cfg : ApiConfig) (app : App) (event : ApiEvent) :
    (serve cfg app event).2.filter (fun r => isOutsider cfg r.1.caller) =
      (outsiderSees cfg app event).map (fun seen => (seen.1, outsiderReply seen.2 seen.1)) := by
  cases event with
  | other f => rfl
  | request req moment triggerReconcile =>
    unfold outsiderSees
    dsimp only
    split_ifs with houtside
    · rw [serve_outsider cfg app req moment triggerReconcile houtside]
      exact List.filter_cons_of_pos houtside
    · rw [List.map_nil, List.filter_eq_nil_iff]
      intro r hr
      obtain ⟨moment, triggerReconcile, hevent⟩ := serve_answers hr
      cases hevent
      exact houtside

end KalshiAgent

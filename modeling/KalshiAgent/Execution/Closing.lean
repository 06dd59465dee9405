import KalshiAgent.Execution.TotalExposure

/-! Closing orders over every interleaving with executions and polls. A closing order is capped to
the contracts of the last poll; what is in flight on its ticker then is not counted. -/

namespace KalshiAgent
open Execution

namespace Exchange

def contractsOn (ex : Exchange) (db : Db) (t : Ticker) : ℤ :=
  ex.inFlight db (fun order => if order.request.ticker = t then order.remaining else 0)
    (fun f => if f.ticker = t then f.count else 0)

structure Against (ex : Exchange) (db : Db) (t : Ticker) (side : Side) : Prop where
  working : ∀ order ∈ ex.working, 0 < order.remaining → order.request.ticker = t →
    order.request.side ≠ side
  executed : ∀ f ∈ ex.executed, db.hasFill f.identity = false → f.ticker = t → f.side ≠ side

end Exchange

/-- The ticker is held on the side, and what is in flight on it closes no more than that. -/
structure OnlyCloses (t : Ticker) (side : Side) (db : Db) (ex : Exchange) : Prop where
  held : ∃ pos, db.positions.find t = some pos ∧ pos.side = side ∧ ex.contractsOn db t ≤ pos.count
  against : ex.Against db t side

section Book
variable {rate δ : ℚ} {db db' : Db} {a : Arrival}

theorem applyFill_find_other {t : Ticker} (h : applyFill rate db a = .ok (db', δ))
    (hother : a.fill.ticker ≠ t) : db'.positions.find t = db.positions.find t := by
  rcases applyFill_cases h with ⟨_, rfl, _⟩ | ⟨_, price, moved, gross, _, htrade, _, rfl⟩
  · rfl
  · have hticker : (moved.accrue δ).marketTicker ≠ t := by
      have hsame : moved.marketTicker = a.fill.ticker := trade_marketTicker htrade
      exact fun heq => hother (hsame.symm.trans heq)
    unfold Db.recordFill
    dsimp only
    rw [KeyedTable.find_put, if_neg hticker]

theorem applyFill_pairs {pos : Position} (h : applyFill rate db a = .ok (db', δ))
    (hnew : db.hasFill a.lookupIdentity = false)
    (hfind : db.positions.find a.fill.ticker = some pos) (hbuy : a.fill.action = .buy)
    (hside : a.fill.side ≠ pos.side) (hcount : 1 ≤ a.fill.count) (hfits : a.fill.count ≤ pos.count) :
    ∃ pos', db'.positions.find a.fill.ticker = some pos' ∧ pos'.side = pos.side ∧
      pos'.count = pos.count - a.fill.count := by
  rcases applyFill_cases h with ⟨hdup, _, _⟩ | ⟨_, price, moved, gross, _, htrade, _, rfl⟩
  · exact absurd (hnew.symm.trans hdup) Bool.false_ne_true
  have hrow : db.positionFor a.fill = pos := by rw [Db.positionFor, hfind, Option.getD_some]
  rw [hrow] at htrade
  have hmoves := trade_moves htrade
  have hticker : (moved.accrue δ).marketTicker = a.fill.ticker :=
    hmoves.marketTicker.trans (KeyedTable.find_key hfind)
  refine ⟨moved.accrue δ, ?_, ?_⟩
  · unfold Db.recordFill
    dsimp only
    rw [← hticker, KeyedTable.find_put_self]
  · cases hmoves with
    | opens haction hflat => omega
    | topsUp haction hheld hsame => exact absurd hsame.symm hside
    | pairsSome haction hheld hopposite hless => exact ⟨rfl, rfl⟩
    | pairsAll haction hheld hopposite hall => exact ⟨rfl, by simp [Position.accrue, hall]⟩
    | flips haction hheld hopposite hmore => omega
    | sellsNone haction => cases hbuy.symm.trans haction
    | sellsSome haction => cases hbuy.symm.trans haction
    | sellsAll haction => cases hbuy.symm.trans haction

end Book

namespace Exchange
variable {ex : Exchange} {db db' : Db} {t : Ticker} {side : Side}

theorem WellFormed.contractsOn_nonneg (h : ex.WellFormed) (db : Db) (t : Ticker) :
    0 ≤ ex.contractsOn db t := by
  refine inFlight_nonneg (fun order horder => ?_) (fun f hf => ?_)
  · have hremaining := (h.working order horder).2.2
    split_ifs <;> omega
  · have hcount := (h.executed f hf).2.1
    split_ifs <;> omega

theorem contractsOn_take (ex : Exchange) (db : Db) (t : Ticker) (orderId : String)
    (request : OrderRequest) :
    (ex.take orderId request).contractsOn db t =
      ex.contractsOn db t + if request.ticker = t then max request.count 0 else 0 :=
  inFlight_take ex db orderId request

theorem Against.take (h : ex.Against db t side) (orderId : String) {request : OrderRequest}
    (hside : request.ticker = t → request.side ≠ side) :
    (ex.take orderId request).Against db t side := by
  refine ⟨fun order horder hleft hticker => ?_, h.executed⟩
  rcases List.mem_append.mp horder with hold | hadded
  · exact h.working order hold hleft hticker
  · obtain rfl := List.mem_singleton.mp hadded
    exact hside hticker

theorem Settled.unstored {ex : Exchange} {db : Db} (h : ex.Settled db) :
    ex.unstored db = [] := by
  refine List.filter_eq_nil_iff.mpr fun f hf => ?_
  simp [h.2 f hf]

theorem Settled.inFlight_eq_zero {M : Type*} [AddCommGroup M] {ex : Exchange} {db : Db}
    {remainder : WorkingOrder → M} {execution : TimedFill → M} (h : ex.Settled db)
    (hzero : ∀ order, order.remaining = 0 → remainder order = 0) :
    ex.inFlight db remainder execution = 0 := by
  have hworking : (ex.working.map remainder).sum = 0 := by
    refine List.sum_eq_zero fun x hx => ?_
    obtain ⟨order, horder, rfl⟩ := List.mem_map.mp hx
    exact hzero order (h.1 order horder)
  rw [Exchange.inFlight, hworking, h.unstored, List.map_nil, List.sum_nil, add_zero]

section Cut
variable {i : ℕ} {order order' : WorkingOrder} {fills : List TimedFill}

theorem contractsOn_cut_le (hi : ex.working[i]? = some order) (hcut : Cuts order order' fills) :
    (ex.cut i order' fills).contractsOn db t ≤ ex.contractsOn db t := by
  refine inFlight_cut_le hi (fun f hf => ?_) ?_
  · have hcount := (hcut.executed f hf).2.2.2.2.1
    split_ifs <;> omega
  · have hsame : ∀ f ∈ fills, (if f.ticker = t then f.count else 0) =
        if order.request.ticker = t then f.count else 0 := by
      intro f hf
      rw [(hcut.executed f hf).2.1]
    rw [hcut.request, List.map_congr_left hsame]
    split_ifs with hticker
    · exact hcut.contracts
    · simp

theorem Against.cut (h : ex.Against db t side) (hi : ex.working[i]? = some order)
    (hcut : Cuts order order' fills) : (ex.cut i order' fills).Against db t side := by
  have horder := h.working order (List.mem_of_getElem? hi)
  refine ⟨fun o ho hleft hticker => ?_, fun f hf hnew hticker => ?_⟩
  · rcases List.mem_or_eq_of_mem_set ho with hold | rfl
    · exact h.working o hold hleft hticker
    · rw [hcut.request] at hticker ⊢
      exact horder (hcut.remaining_pos hleft) hticker
  · rcases List.mem_append.mp hf with hold | hadded
    · exact h.executed f hold hnew hticker
    · obtain ⟨hleft, hsame, hside, _⟩ := hcut.executed f hadded
      rw [hside]
      exact horder hleft (hsame ▸ hticker)

end Cut

end Exchange

namespace OnlyCloses
variable {t : Ticker} {side : Side} {db db' : Db} {ex : Exchange}

theorem congr (h : OnlyCloses t side db ex) (hbooked : db'.booked = db.booked) :
    OnlyCloses t side db' ex := by
  obtain ⟨_, _, _, _, rfl⟩ := Db.of_booked hbooked
  exact ⟨h.held, ⟨h.against.working, h.against.executed⟩⟩

theorem cut {i : ℕ} {order order' : WorkingOrder} {fills : List TimedFill}
    (h : OnlyCloses t side db ex) (hi : ex.working[i]? = some order)
    (hcut : Cuts order order' fills) : OnlyCloses t side db (ex.cut i order' fills) := by
  obtain ⟨pos, hfind, hside, hfits⟩ := h.held
  exact ⟨⟨pos, hfind, hside, (Exchange.contractsOn_cut_le hi hcut).trans hfits⟩,
    h.against.cut hi hcut⟩

theorem book {rate δ : ℚ} {a : Arrival} {f : TimedFill} (h : OnlyCloses t side db ex)
    (hex : ex.WellFormed) (hf : f ∈ ex.executed) (ha : a.fill = f.toKalshiFill)
    (happ : applyFill rate db a = .ok (db', δ)) (hnew : db.hasFill a.lookupIdentity = false) :
    OnlyCloses t side db' ex := by
  obtain ⟨hunseen, hstored, hmono⟩ := book_hasFill ha happ hnew
  obtain ⟨pos, hfind, hside, hfits⟩ := h.held
  have hnonneg : ∀ g ∈ ex.executed, 0 ≤ if g.ticker = t then g.count else 0 := by
    intro g hg
    have hcount := (hex.executed g hg).2.1
    split_ifs <;> omega
  have hfewer : ex.contractsOn db' t + (if f.ticker = t then f.count else 0) ≤ ex.contractsOn db t :=
    Exchange.inFlight_book_le hf hnonneg hmono hunseen hstored
  refine ⟨?_, h.against.working, fun g hg hleft hticker => ?_⟩
  · by_cases hticker : f.ticker = t
    · rw [if_pos hticker] at hfewer
      obtain ⟨hbuy, hcount, _⟩ := hex.executed f hf
      have hagainst := h.against.executed f hf hunseen hticker
      have hleft := hex.contractsOn_nonneg db' t
      have hrow : db.positions.find a.fill.ticker = some pos := by
        rw [ha, hticker]
        exact hfind
      have hopposite : a.fill.side ≠ pos.side := by
        rw [ha, hside]
        exact hagainst
      have hfewer' : a.fill.count ≤ pos.count := by
        rw [ha]
        omega
      obtain ⟨pos', hfind', hside', hcount'⟩ :=
        applyFill_pairs happ hnew hrow (ha ▸ hbuy) hopposite (ha ▸ hcount) hfewer'
      rw [ha] at hfind' hcount'
      exact ⟨pos', hticker ▸ hfind', hside'.trans hside, by omega⟩
    · rw [if_neg hticker, add_zero] at hfewer
      have hsame := applyFill_find_other happ (ha ▸ hticker)
      exact ⟨pos, hsame.trans hfind, hside, hfewer.trans hfits⟩
  · refine h.against.executed g hg ?_ hticker
    cases hold : db.hasFill g.identity with
    | true => exact absurd (hleft.symm.trans (hmono _ hold)) Bool.false_ne_true
    | false => rfl

theorem bookAll {rate : ℚ} {as : List Arrival} (h : OnlyCloses t side db ex) (hex : ex.WellFormed)
    (has : ∀ a ∈ as, ∃ f ∈ ex.executed, a.fill = f.toKalshiFill)
    (hrun : applyFills rate db as = .ok db') : OnlyCloses t side db' ex := by
  induction as generalizing db with
  | nil =>
    cases hrun
    exact h
  | cons a as ih =>
    obtain ⟨db₁, δ, happ, hrest⟩ := applyFills_cons_ok.mp hrun
    have has' := fun b hb => has b (List.mem_cons_of_mem a hb)
    refine ih ?_ has' hrest
    cases hdup : db.hasFill a.lookupIdentity with
    | true =>
      rcases applyFill_cases happ with ⟨_, rfl, _⟩ | ⟨hnew, _⟩
      · exact h
      · exact absurd (hnew.symm.trans hdup) Bool.false_ne_true
    | false =>
      obtain ⟨f, hf, ha⟩ := has a List.mem_cons_self
      exact h.book hex hf ha happ hdup

end OnlyCloses

section Run
variable {cfg : Config} {env : IngestEnv} {t : Ticker} {side : Side} {s s' : Trading}

def ByClosingBranch (cfg : Config) (t : Ticker) (s : Trading) (step : TradingStep) : Prop :=
  ∀ request ∈ sentRequest cfg s step, request.ticker = t →
    0 < s.agent.db.heldAgainst t request.side

/-- The condition: the held contracts up to the size of one order, and what is in flight on the
ticker before it, are no more than is held. -/
def WithinHeld (cfg : Config) (t : Ticker) (s : Trading) (step : TradingStep) : Prop :=
  ∀ request ∈ sentRequest cfg s step, request.ticker = t →
    let held := s.agent.db.heldAgainst t request.side
    s.exchange.contractsOn s.agent.db t + min held cfg.risk.perOrderMaxContracts ≤ held

instance : Decidable (ByClosingBranch cfg t s step) := inferInstanceAs (Decidable (∀ request ∈ _, _))

instance : Decidable (WithinHeld cfg t s step) := inferInstanceAs (Decidable (∀ request ∈ _, _))

def OnSideOrFlat (t : Ticker) (side : Side) (db : Db) : Prop :=
  ∀ pos, db.positions.find t = some pos → 0 ≤ pos.count ∧ (pos.count = 0 ∨ pos.side = side)

instance (t : Ticker) (side : Side) (db : Db) : Decidable (OnSideOrFlat t side db) :=
  inferInstanceAs (Decidable (∀ pos ∈ db.positions.find t, _))

structure ClosingInvariant (t : Ticker) (side : Side) (s : Trading) : Prop where
  exchange : s.exchange.WellFormed
  closes : OnlyCloses t side s.agent.db s.exchange

namespace ClosingInvariant

theorem onSideOrFlat (hI : ClosingInvariant t side s) : OnSideOrFlat t side s.agent.db := by
  obtain ⟨pos, hfind, hside, hfits⟩ := hI.closes.held
  have hnonneg := hI.exchange.contractsOn_nonneg s.agent.db t
  intro pos' hfind'
  cases hfind.symm.trans hfind'
  exact ⟨hnonneg.trans hfits, .inr hside⟩

theorem send {agent : Agent} {request : OrderRequest} {orderId : String} {step : TradingStep}
    (hI : ClosingInvariant t side s) (hsent : sentRequest cfg s step = some request)
    (hcloses : ByClosingBranch cfg t s step) (hroom : WithinHeld cfg t s step)
    (hbooked : agent.db.booked = s.agent.db.booked) (hbuy : request.action = .buy)
    (hcount : 0 < s.agent.db.heldAgainst request.ticker request.side →
      request.count = min (s.agent.db.heldAgainst request.ticker request.side)
        cfg.risk.perOrderMaxContracts)
    (hlimit : 0 ≤ request.limit.toDecimal) :
    ClosingInvariant t side (s.send agent request orderId) := by
  have hagent : (s.send agent request orderId).agent = agent := by
    unfold Trading.send
    dsimp only
    split_ifs <;> rfl
  have hexchange : (s.send agent request orderId).exchange = s.exchange.take orderId request := by
    unfold Trading.send
    dsimp only
    split_ifs <;> rfl
  obtain ⟨pos, hfind, hside, hfits⟩ := hI.closes.held
  have hon : request.ticker = t → request.side ≠ side ∧
      s.exchange.contractsOn s.agent.db t + max request.count 0 ≤ pos.count := by
    intro hticker
    have hheld := hcloses request hsent hticker
    have hcap := hroom request hsent hticker
    rw [hticker] at hcount
    dsimp only at hcap
    rw [← hcount hheld] at hcap
    simp only [Db.heldAgainst, hfind, Option.map_some, Option.getD_some, Position.against]
      at hheld hcap
    split_ifs at hheld hcap with hopposite
    · exact ⟨hside ▸ hopposite.symm, by omega⟩
    · omega
  have hdb : (s.send agent request orderId).agent.db.booked = s.agent.db.booked := by
    rw [hagent, hbooked]
  refine ⟨?_, OnlyCloses.congr ⟨⟨pos, hfind, hside, ?_⟩, ?_⟩ hdb⟩
  · rw [hexchange]
    exact hI.exchange.take orderId hbuy hlimit
  · rw [hexchange, Exchange.contractsOn_take]
    split_ifs with hticker
    · exact (hon hticker).2
    · rwa [add_zero]
  · rw [hexchange]
    exact hI.closes.against.take orderId (fun hticker => (hon hticker).1)

theorem poll {script : ListFills} (hI : ClosingInvariant t side s)
    (hscript : ∀ a ∈ script.returned, ∃ f ∈ s.exchange.executed, a.fill = f.toKalshiFill) :
    ClosingInvariant t side (s.polled env script) := by
  obtain ⟨db', hrun, hdb⟩ := s.polled_books env script
  have hall := hI.closes.bookAll hI.exchange
    (fun a ha => hscript a (mem_returned_of_committed ha)) hrun
  exact ⟨hI.exchange, hall.congr hdb⟩

theorem step {step : TradingStep} (hI : ClosingInvariant t side s)
    (hcloses : ByClosingBranch cfg t s step) (hroom : WithinHeld cfg t s step)
    (h : tradingStep cfg env s step = some s') : ClosingInvariant t side s' := by
  cases tradingStep_view h with
  | frame hbooked hexchange hcheck =>
    refine ⟨?_, OnlyCloses.congr ?_ hbooked⟩
    · rw [hexchange]
      exact hI.exchange
    · rw [hexchange]
      exact hI.closes
  | sends hsent hprice hallowed hplace =>
    obtain ⟨hbooked, hticker, hside, hbuy, hcount, hlimit⟩ := placeOrder_request hplace
    refine hI.send hsent hcloses hroom hbooked hbuy ?_ ?_
    · rw [hticker, hside, hcount]
      exact fun hheld => sizeTrade_closes hheld
    · rw [hlimit]
      exact toDecimal_priceDecimalToStr_nonneg hprice.le
  | executes hexchange =>
    obtain ⟨order, order', hi, rfl, hcut⟩ := Exchange.execute_cuts hexchange
    exact ⟨hI.exchange.cut hi hcut, hI.closes.cut hi hcut⟩
  | expires hexchange =>
    obtain ⟨order, order', hi, rfl, hcut⟩ := Exchange.expire_cuts hI.exchange hexchange
    exact ⟨hI.exchange.cut hi hcut, hI.closes.cut hi hcut⟩
  | polls hscript => exact hI.poll hscript

end ClosingInvariant

/-- Closing orders only close, where each is let through with room beside what is in flight. -/
theorem closing_only_closes {steps : List TradingStep} {pos : Position}
    (hfind : s.agent.db.positions.find t = some pos) (hheld : 0 < pos.count)
    (hexchange : s.exchange.WellFormed) (hsettled : s.exchange.Settled s.agent.db)
    (hcloses : AllSteps (tradingStep cfg env) (ByClosingBranch cfg t) s steps)
    (hroom : AllSteps (tradingStep cfg env) (WithinHeld cfg t) s steps) :
    AllStates (tradingStep cfg env) (fun s => OnSideOrFlat t pos.side s.agent.db) s steps := by
  have hstart : ClosingInvariant t pos.side s := by
    refine ⟨hexchange, ⟨pos, hfind, rfl, ?_⟩, ⟨fun order horder hleft => ?_, fun f hf hnew => ?_⟩⟩
    · have hnone : s.exchange.contractsOn s.agent.db t = 0 :=
        hsettled.inFlight_eq_zero (fun order hzero => by rw [hzero, ite_self])
      exact hnone ▸ hheld.le
    · exact absurd (hsettled.1 order horder) hleft.ne'
    · exact absurd (hnew.symm.trans (hsettled.2 f hf)) Bool.false_ne_true
  exact allStates_of_allSteps (I := ClosingInvariant t pos.side)
    (fun s step s' hI hguard h => hI.step hguard.1 hguard.2 h) (fun s hI => hI.onSideOrFlat) hstart
    (hcloses.and hroom)

end Run

def tenYes : Position := ⟨"FOO", .yes, 10, ⟨5000⟩, 0⟩

def holdingTen : Trading where
  agent := ⟨{ Db.empty with positions := KeyedTable.empty.put tenYes }, ⟨none⟩, .start⟩
  highWaterTs := none
  call := none
  exchange := ⟨[], []⟩
  lastCheck := .start

def closeAs (id : String) : List TradingStep :=
  [.handleSignal { yesSignal "FOO" with side := .no } 0,
    .market (.ok ⟨none, some "active", none, some (.decimal (1 / 2))⟩) ⟨0, 0⟩,
    .bankroll (.ok 100) ⟨0, 0⟩ ⟨0, 0⟩ id id, .created (.ok ⟨id, "executed"⟩) ⟨0, 0⟩]

def closedAs (id : String) (count : ℤ) (time : Time) : Arrival :=
  TimedFill.arrival { yesFill id "FOO" count (1 / 2) time with
    side := .no, yesPriceDollars := none, noPriceDollars := some (.decimal (1 / 2)) }

def oneByOne : List TradingStep :=
  closeAs "o1" ++ [.execute 0 (executed 4 (1 / 2) 1000000), .expire 0,
      .poll (.last [closedAs "o1" 4 1000000])] ++
    closeAs "o2" ++ [.execute 1 (executed 6 (1 / 2) 2000000),
      .poll (.last [closedAs "o2" 6 2000000])]

theorem closing_only_closes_oneByOne :
    AllStates (tradingStep (.example (.fixed 0)) plainEnv)
      (fun s => OnSideOrFlat "FOO" .yes s.agent.db) holdingTen oneByOne := by
  have hfind : holdingTen.agent.db.positions.find "FOO" = some tenYes := by decide +kernel
  have hempty : holdingTen.exchange.WellFormed :=
    ⟨fun order horder => absurd horder List.not_mem_nil, fun f hf => absurd hf List.not_mem_nil⟩
  exact closing_only_closes hfind (by decide) hempty (by decide +kernel) (by decide +kernel)
    (by decide +kernel)

def bothAtOnce : List TradingStep :=
  closeAs "o1" ++ closeAs "o2" ++
    [.execute 0 (executed 10 (1 / 2) 1000000), .execute 1 (executed 10 (1 / 2) 2000000),
      .poll (.last [closedAs "o1" 10 1000000, closedAs "o2" 10 2000000])]

/-- Ten YES become ten NO, by orders that the closing branch alone has let through. -/
theorem not_closing_bothAtOnce :
    AllSteps (tradingStep (.example (.fixed 0)) plainEnv)
        (ByClosingBranch (.example (.fixed 0)) "FOO") holdingTen bothAtOnce ∧
      ¬ AllStates (tradingStep (.example (.fixed 0)) plainEnv)
        (fun s => OnSideOrFlat "FOO" .yes s.agent.db) holdingTen bothAtOnce :=
  ⟨by decide +kernel, not_allStates_of_decide (by decide +kernel)⟩

end KalshiAgent

import KalshiAgent.Lib.Spacing
import KalshiAgent.Safety.Growth
import KalshiAgent.Strategies.Provenance

/-! The placeholder strategy, which proves the pipeline with a signal now and then, and the orders that
come of its signals. -/

namespace KalshiAgent
open Execution Metering

structure PlaceholderStrategyConfig where
  testTicker : Ticker
  emitIntervalSeconds : ℤ

structure PlaceholderTick where
  monotonic : ℚ
  now : Time
  handlings : ℕ → Handling

inductive PlaceholderStep
  | tick (t : PlaceholderTick)
  | meanwhile (m : Meanwhile)

/-- A signal that has been given: its tick, and the agent that this tick began with. -/
structure Emission where
  tick : PlaceholderTick
  agent : Agent

def Emission.time (e : Emission) : ℚ := e.tick.monotonic

structure Placeholding where
  agent : Agent
  lastEmit : Option ℚ
  monotonic : ℚ
  -- ghost state, the oldest first
  emitted : List Emission

namespace PlaceholderStrategyConfig
variable (config : PlaceholderStrategyConfig)

def signal (now : Time) : Signal where
  marketTicker := config.testTicker
  side := .yes
  modelProbability := 55 / 100
  confidence := 1 / 10
  rationale := "placeholder signal for pipeline validation"
  validUntil := now + 300000000
  strategyName := "placeholder"
  modelProbability_mem := by norm_num
  confidence_mem := by norm_num

/-- `generate_signals`: the new `_last_emit`, and the signals. -/
def generateSignals (lastEmit : Option ℚ) (monotonic : ℚ) (now : Time) : Option ℚ × List Signal :=
  match lastEmit with
  | none => (some monotonic, [config.signal now])
  | some last =>
    if monotonic - last < config.emitIntervalSeconds then (some last, [])
    else (some monotonic, [config.signal now])

end PlaceholderStrategyConfig

/-- `_tick_strategy`, on a clock that does not go back. -/
def placeholderStep (cfg : Config) (config : PlaceholderStrategyConfig) (s : Placeholding) :
    PlaceholderStep → Option Placeholding
  | .meanwhile m => some { s with agent := m.run s.agent }
  | .tick t =>
    if t.monotonic < s.monotonic then none
    else
      let (lastEmit, signals) := config.generateSignals s.lastEmit t.monotonic t.now
      some {
        agent := handleSignals cfg t.handlings 0 s.agent signals
        lastEmit
        monotonic := t.monotonic
        emitted := s.emitted ++ signals.map fun _ => ⟨t, s.agent⟩ }

/-- The order of this signal, from the checks that its handling comes to. It costs less than the
signal's probability, unless it closes what is held at these checks. -/
structure OfPlaceholder (cfg : Config) (config : PlaceholderStrategyConfig) (e : Emission)
    (c : AtCheck) (order : OrderTerms) : Prop where
  ticker : order.marketTicker = config.testTicker
  side : order.side = .yes
  buy : order.action = .buy
  places : Places cfg ((e.tick.handlings 0).waiting.run e.agent) (config.signal e.tick.now)
    (e.tick.handlings 0).awaits c order
  limit : order.priceDollars = priceDecimalToStr c.currentPrice
  cheap : (c.trade (config.signal e.tick.now)).Opens c.agent.db → c.currentPrice < 55 / 100

def Emission.orders (cfg : Config) (config : PlaceholderStrategyConfig) (e : Emission) :
    List OrderTerms :=
  (handleSignals cfg e.tick.handlings 0 e.agent [config.signal e.tick.now]).db.terms.drop
    e.agent.db.terms.length

structure Placed (cfg : Config) (config : PlaceholderStrategyConfig) (orders : List OrderTerms)
    (s : Placeholding) : Prop where
  added : s.agent.db.terms = orders ++ s.emitted.flatMap (Emission.orders cfg config)
  once : ∀ e ∈ s.emitted, (e.orders cfg config).length ≤ 1
  sourced : ∀ e ∈ s.emitted, ∀ order ∈ e.orders cfg config, ∃ c, OfPlaceholder cfg config e c order
  bounded : 0 < config.emitIntervalSeconds → ∀ a b, a ≤ b →
    (within a b (s.emitted.map Emission.time) : ℚ) ≤ 1 + (b - a) / config.emitIntervalSeconds

structure Emitting (cfg : Config) (config : PlaceholderStrategyConfig) (orders : List OrderTerms)
    (s : Placeholding) : Prop where
  added : s.agent.db.terms = orders ++ s.emitted.flatMap (Emission.orders cfg config)
  spaced : (s.emitted.map Emission.time).Pairwise
    (fun a b => a + (config.emitIntervalSeconds : ℚ) ≤ b)
  last : ∀ e ∈ s.emitted, ∃ last, s.lastEmit = some last ∧ e.time ≤ last
  past : ∀ e ∈ s.emitted, e.time ≤ s.monotonic

variable {cfg : Config} {config : PlaceholderStrategyConfig} {orders : List OrderTerms}
  {s s' : Placeholding} {order : OrderTerms}

theorem Places.ofPlaceholder {e : Emission} {c : AtCheck}
    (h : Places cfg ((e.tick.handlings 0).waiting.run e.agent) (config.signal e.tick.now)
      (e.tick.handlings 0).awaits c order) : OfPlaceholder cfg config e c order := by
  have hchecked := h.checked
  refine ⟨hchecked.ticker, hchecked.side, hchecked.buy, h, hchecked.limit, fun hopens => ?_⟩
  have hallowed := hchecked.allowed
  obtain ⟨_, _, hlow, hhigh, hsize⟩ := checkTrade_allowed hallowed
  rw [hsize, sizeTrade_opening cfg hopens] at hallowed
  have hsized := openingDecision_sized ⟨hlow, hhigh⟩ hchecked.funded hallowed
  have hconf : 0 ≤ (config.signal e.tick.now).confidence ∧
      (config.signal e.tick.now).confidence ≤ 1 := (config.signal e.tick.now).confidence_mem
  exact (hsized.le_optimal hchecked.funded hconf).1

theorem PlaceholderStrategyConfig.generateSignals_mem {lastEmit : Option ℚ} {monotonic : ℚ}
    {now : Time} {signal : Signal}
    (h : signal ∈ (config.generateSignals lastEmit monotonic now).2) : signal = config.signal now := by
  unfold generateSignals at h
  split at h
  · exact List.mem_singleton.mp h
  · split_ifs at h
    · exact absurd h List.not_mem_nil
    · exact List.mem_singleton.mp h

theorem PlaceholderStrategyConfig.generateSignals_turn {lastEmit : Option ℚ} {monotonic : ℚ}
    {now : Time} {signal : Signal} {k : ℕ}
    (h : (config.generateSignals lastEmit monotonic now).2[k]? = some signal) : k = 0 := by
  have hlength : (config.generateSignals lastEmit monotonic now).2.length ≤ 1 := by
    unfold generateSignals
    split
    · exact le_rfl
    · split_ifs
      · exact Nat.zero_le 1
      · exact le_rfl
  obtain ⟨hk, _⟩ := List.getElem?_eq_some_iff.mp h
  exact Nat.lt_one_iff.mp (hk.trans_le hlength)

theorem Emission.handled (cfg : Config) (config : PlaceholderStrategyConfig) (e : Emission) :
    (handleSignals cfg e.tick.handlings 0 e.agent [config.signal e.tick.now]).db.terms =
        e.agent.db.terms ++ e.orders cfg config ∧
      (e.orders cfg config).length ≤ 1 ∧
      ∀ order ∈ e.orders cfg config, ∃ c, OfPlaceholder cfg config e c order := by
  have hwaiting := ((e.tick.handlings 0).waiting.keepsAudit e.agent).2
  rcases handleSignal_places cfg ((e.tick.handlings 0).waiting.run e.agent)
    (config.signal e.tick.now) (e.tick.handlings 0).awaits with hsame | ⟨c, order, hplaces⟩
  · have hterms : (handleSignals cfg e.tick.handlings 0 e.agent
        [config.signal e.tick.now]).db.terms = e.agent.db.terms := hsame.trans hwaiting
    have hnone : e.orders cfg config = [] := by
      rw [orders, hterms, List.drop_length]
    rw [hterms, hnone]
    simp
  · have hterms : (handleSignals cfg e.tick.handlings 0 e.agent
        [config.signal e.tick.now]).db.terms = e.agent.db.terms ++ [order] :=
      hplaces.added.trans (congrArg (· ++ [order]) hwaiting)
    have hone : e.orders cfg config = [order] := by
      rw [orders, hterms, List.drop_left]
    rw [hterms, hone]
    refine ⟨rfl, le_rfl, List.forall_mem_singleton.mpr ⟨c, hplaces.ofPlaceholder⟩⟩

namespace Emitting

theorem emits (h : Emitting cfg config orders s) (t : PlaceholderTick) (hclock : s.monotonic ≤ t.monotonic)
    (hdue : ∀ last, s.lastEmit = some last → last + config.emitIntervalSeconds ≤ t.monotonic) :
    Emitting cfg config orders
      ⟨handleSignals cfg t.handlings 0 s.agent [config.signal t.now], some t.monotonic, t.monotonic,
        s.emitted ++ [⟨t, s.agent⟩]⟩ := by
  constructor
  · have hhandled := (Emission.handled cfg config ⟨t, s.agent⟩).1
    rw [List.flatMap_append, List.flatMap_singleton, ← List.append_assoc, ← h.added]
    exact hhandled
  · rw [List.map_append]
    refine List.pairwise_append.mpr ⟨h.spaced, List.pairwise_singleton _ _, fun time htime _ hnew => ?_⟩
    obtain rfl := List.mem_singleton.mp hnew
    obtain ⟨e, he, rfl⟩ := List.mem_map.mp htime
    obtain ⟨last, hlast, hle⟩ := h.last e he
    exact (add_le_add_left hle _).trans (hdue last hlast)
  · refine List.forall_mem_append.mpr ⟨fun e he => ?_, List.forall_mem_singleton.mpr ?_⟩
    · exact ⟨t.monotonic, rfl, (h.past e he).trans hclock⟩
    · exact ⟨t.monotonic, rfl, le_rfl⟩
  · refine List.forall_mem_append.mpr ⟨fun e he => ?_, List.forall_mem_singleton.mpr le_rfl⟩
    exact (h.past e he).trans hclock

theorem step (h : Emitting cfg config orders s) {l : PlaceholderStep}
    (hstep : placeholderStep cfg config s l = some s') : Emitting cfg config orders s' := by
  cases l with
  | meanwhile m =>
    cases hstep
    exact ⟨(m.keepsAudit s.agent).2.trans h.added, h.spaced, h.last, h.past⟩
  | tick t =>
    unfold placeholderStep at hstep
    dsimp only at hstep
    split_ifs at hstep with hclock
    have hlater : s.monotonic ≤ t.monotonic := not_lt.mp hclock
    cases hstep
    unfold PlaceholderStrategyConfig.generateSignals
    cases hlast : s.lastEmit with
    | none => exact h.emits t hlater (fun last hsome => absurd (hlast.symm.trans hsome) nofun)
    | some last =>
      dsimp only
      split_ifs with hearly
      · rw [List.map_nil, List.append_nil, ← hlast]
        exact ⟨h.added, h.spaced, h.last, fun e he => (h.past e he).trans hlater⟩
      · refine h.emits t hlater fun last' hsome => ?_
        obtain rfl := Option.some.inj (hlast.symm.trans hsome)
        have hdue := not_lt.mp hearly
        linarith

end Emitting

/-- In every run of the placeholder strategy: an order at most for a signal, an interval between two
signals, and orders for the test ticker alone. -/
theorem placeholder_placed (cfg : Config) (config : PlaceholderStrategyConfig) (agent : Agent)
    (now : ℚ) (steps : List PlaceholderStep) :
    AllStates (placeholderStep cfg config) (Placed cfg config agent.db.terms) ⟨agent, none, now, []⟩
      steps := by
  apply allStates_of_invariant (I := Emitting cfg config agent.db.terms) _ _ _ steps
  · exact fun s l s' h hstep => h.step hstep
  · intro s h
    refine ⟨h.added, fun e _ => (e.handled cfg config).2.1, fun e _ => (e.handled cfg config).2.2,
      fun hpos a b hab => ?_⟩
    exact within_le_of_pairwise (Int.cast_pos.mpr hpos) h.spaced hab
  · refine ⟨(List.append_nil _).symm, List.Pairwise.nil, ?_, ?_⟩
    · exact List.forall_mem_nil _
    · exact List.forall_mem_nil _

end KalshiAgent

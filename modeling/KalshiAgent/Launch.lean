import KalshiAgent.Strategies.Placeholder

/-! How a process comes to trade: its settings, the test mode, its strategy, and what it can never
trade by in live mode. -/

namespace KalshiAgent
open Execution Rounding

inductive Mode
  | paper
  | live
  deriving DecidableEq

def Mode.text : Mode → String
  | .paper => "paper"
  | .live => "live"

inductive ActiveStrategy
  | placeholder
  | llmAssessor
  deriving DecidableEq

structure KalshiConfig where
  baseUrlPaper : String
  baseUrlLive : String
  wsUrlPaper : String
  wsUrlLive : String

structure LLMAssessorStrategyConfig where
  tickers : List Ticker
  categories : List String
  maxMarketsPerTick : ℤ
  minVolumeContracts : ℤ
  minHoursToClose : ℚ
  discoveryMaxPages : ℤ
  minEdge : Decimal
  minConfidence : Decimal
  signalTtlMinutes : ℤ
  minSecondsBetweenSignalsPerTicker : ℤ

structure StrategyConfig where
  active : ActiveStrategy
  placeholder : Option PlaceholderStrategyConfig
  llmAssessor : Option LLMAssessorStrategyConfig
  allowPlaceholderLive : Bool

/-- The `risk` block before `_fraction` has seen it. -/
structure RiskBlock where
  maxPositionPerMarketUsd : ℚ
  maxTotalExposureUsd : ℚ
  maxDailyLossUsd : ℚ
  perOrderMaxContracts : ℤ
  maxOrdersPerMinute : ℤ
  minEdgeAfterFeesBps : ℤ
  kellyFraction : ℚ
  maxKellySizePctBankroll : ℚ
  errorSpikeThreshold : ℤ
  errorSpikeWindowSeconds : ℤ
  deriving DecidableEq

/-- The YAML file, where each block but the mode has the types of its fields. -/
structure SettingsFile where
  mode : Option String
  kalshi : KalshiConfig
  risk : RiskBlock
  fees : FeesConfig
  markets : MarketsConfig
  displayTimezone : Tz
  strategy : StrategyConfig

structure Environment where
  kalshiApiKeyId : Option String
  kalshiPrivateKeyPath : Option String
  controlBearerToken : Option String
  openrouterApiKey : Option String

structure Secrets where
  kalshiApiKeyId : String
  kalshiPrivateKeyPath : String
  controlBearerToken : String
  openrouterApiKey : Option String

/-- `config.py`'s `Config`, with the blocks that the risk monitor reads in front. -/
structure Settings extends Config where
  mode : Mode
  kalshi : KalshiConfig
  strategy : StrategyConfig
  secrets : Secrets

structure ConfigError where
  loc : List String
  message : String
  deriving DecidableEq

def required (field : String) (value : Option String) : List ConfigError :=
  if value = none then [⟨[field], "Field required"⟩] else []

def Environment.secrets (env : Environment) : Except (List ConfigError) Secrets :=
  match env.kalshiApiKeyId, env.kalshiPrivateKeyPath, env.controlBearerToken with
  | some kalshiApiKeyId, some kalshiPrivateKeyPath, some controlBearerToken =>
    .ok ⟨kalshiApiKeyId, kalshiPrivateKeyPath, controlBearerToken, env.openrouterApiKey⟩
  | _, _, _ => .error (required "kalshi_api_key_id" env.kalshiApiKeyId ++
      required "kalshi_private_key_path" env.kalshiPrivateKeyPath ++
      required "control_bearer_token" env.controlBearerToken)

def readMode : Option String → Except ConfigError Mode
  | none => .ok .paper
  | some text =>
    if text = "paper" then .ok .paper
    else if text = "live" then .ok .live
    else .error ⟨["mode"], "Input should be 'paper' or 'live'"⟩

def fraction (field : String) (v : ℚ) : List ConfigError :=
  if 0 < v ∧ v ≤ 1 then [] else [⟨["risk", field], "Value error, must be in (0, 1]"⟩]

def RiskBlock.errors (risk : RiskBlock) : List ConfigError :=
  fraction "kelly_fraction" risk.kellyFraction ++
    fraction "max_kelly_size_pct_bankroll" risk.maxKellySizePctBankroll

theorem fraction_eq_nil {field : String} {v : ℚ} : fraction field v = [] ↔ 0 < v ∧ v ≤ 1 := by
  unfold fraction
  by_cases h : 0 < v ∧ v ≤ 1
  · rw [if_pos h]
    exact iff_of_true rfl h
  · rw [if_neg h]
    exact iff_of_false (List.cons_ne_nil _ _) h

theorem RiskBlock.errors_eq_nil {risk : RiskBlock} : risk.errors = [] ↔
    (0 < risk.kellyFraction ∧ risk.kellyFraction ≤ 1) ∧
      (0 < risk.maxKellySizePctBankroll ∧ risk.maxKellySizePctBankroll ≤ 1) := by
  rw [errors, List.append_eq_nil_iff, fraction_eq_nil, fraction_eq_nil]

def RiskBlock.config (risk : RiskBlock) (h : risk.errors = []) : RiskConfig where
  maxPositionPerMarketUsd := risk.maxPositionPerMarketUsd
  maxTotalExposureUsd := risk.maxTotalExposureUsd
  maxDailyLossUsd := risk.maxDailyLossUsd
  perOrderMaxContracts := risk.perOrderMaxContracts
  maxOrdersPerMinute := risk.maxOrdersPerMinute
  minEdgeAfterFeesBps := risk.minEdgeAfterFeesBps
  kellyFraction := risk.kellyFraction
  maxKellySizePctBankroll := risk.maxKellySizePctBankroll
  errorSpikeThreshold := risk.errorSpikeThreshold
  errorSpikeWindowSeconds := risk.errorSpikeWindowSeconds
  kellyFraction_mem := (errors_eq_nil.mp h).1
  maxKellySize_mem := (errors_eq_nil.mp h).2

def SettingsFile.config (file : SettingsFile) (h : file.risk.errors = []) : Config where
  risk := file.risk.config h
  fees := file.fees
  markets := file.markets
  displayTimezone := file.displayTimezone

def validateStrategyMode (mode : Mode) (strategy : StrategyConfig) : Option String :=
  if strategy.active = .placeholder ∧ strategy.placeholder.isNone then
    some "strategy.placeholder block is required when active=placeholder"
  else if strategy.active = .llmAssessor ∧ strategy.llmAssessor.isNone then
    some "strategy.llm_assessor block is required when active=llm_assessor"
  else if mode = .live ∧ strategy.active = .placeholder ∧ ¬ strategy.allowPlaceholderLive then
    some ("Refusing live mode with placeholder strategy. Set a real strategy or explicitly " ++
      "set strategy.allow_placeholder_live=true for a deliberate smoke test.")
  else none

/-- `Config.model_validate`, whose last validator runs only where all fields are good. -/
def modelValidate (file : SettingsFile) (mode : Option String) (secrets : Secrets) :
    Except (List ConfigError) Settings :=
  match readMode mode with
  | .error e => .error (e :: file.risk.errors)
  | .ok mode =>
    if h : file.risk.errors = [] then
      match validateStrategyMode mode file.strategy with
      | some message => .error [⟨[], "Value error, " ++ message⟩]
      | none => .ok {
          toConfig := file.config h
          mode
          kalshi := file.kalshi
          strategy := file.strategy
          secrets }
    else .error file.risk.errors

def modeText (file : SettingsFile) : Option Mode → Option String
  | some mode => some mode.text
  | none => file.mode

def loadConfig (file : SettingsFile) (env : Environment) (modeOverride : Option Mode) :
    Except (List ConfigError) Settings :=
  match env.secrets with
  | .error errors => .error errors
  | .ok secrets => modelValidate file (modeText file modeOverride) secrets

namespace Settings
variable (config : Settings)

def kalshiBaseUrl : String :=
  if config.mode = .live then config.kalshi.baseUrlLive else config.kalshi.baseUrlPaper

def kalshiWsUrl : String :=
  if config.mode = .live then config.kalshi.wsUrlLive else config.kalshi.wsUrlPaper

def applyTestMode : Except String Settings :=
  if config.mode = .live then
    .error ("Refusing --test-mode in live mode: it zeroes the edge/confidence " ++
      "risk thresholds, which is only safe against the demo endpoint.")
  else
    .ok { config with
      risk := { config.risk with minEdgeAfterFeesBps := 0 }
      strategy := { config.strategy with
        llmAssessor := config.strategy.llmAssessor.map fun la =>
          { la with
            minConfidence := .finite 0
            minEdge := .finite 0
            minSecondsBetweenSignalsPerTicker := 0 } } }

end Settings

structure Runtime where
  lower : String → String
  reads : FloatReads
  str : Json → String

inductive LaunchedStrategy
  | placeholder (config : PlaceholderStrategyConfig)
  | llmAssessor (config : DiscoveryConfig) (assessor : Assessor)

namespace LLMAssessorStrategyConfig
variable (la : LLMAssessorStrategyConfig) (runtime : Runtime)

/-- `timedelta` rounds the hours to microseconds. -/
def discovery (whitelistCategories : List String) : DiscoveryConfig where
  tickers := la.tickers
  categories := (if la.categories = [] then whitelistCategories else la.categories).map runtime.lower
  maxPerTick := la.maxMarketsPerTick.toNat
  minVolume := la.minVolumeContracts
  minHoursToClose := roundHalfEven (la.minHoursToClose * 3600000000)
  discoveryMaxPages := la.discoveryMaxPages.toNat
  minBetween := la.minSecondsBetweenSignalsPerTicker * 1000000
  lower := runtime.lower

def assessor : Assessor where
  minEdge := la.minEdge
  minConfidence := la.minConfidence
  ttl := la.signalTtlMinutes * 60000000
  reads := runtime.reads
  text := runtime.str

end LLMAssessorStrategyConfig

def Settings.selectStrategy (config : Settings) (runtime : Runtime) : Except String LaunchedStrategy :=
  match config.strategy.active with
  | .llmAssessor =>
    if !given config.secrets.openrouterApiKey then .error "openrouter_api_key_missing"
    else
      match config.strategy.llmAssessor with
      | none => .error "llm_assessor_config_missing"
      | some la =>
        if la.tickers = [] ∧ la.categories = [] then .error "llm_assessor_needs_tickers_or_categories"
        else .ok (.llmAssessor (la.discovery runtime config.markets.whitelistCategories)
          (la.assessor runtime))
  | .placeholder =>
    match config.strategy.placeholder with
    | none => .error "placeholder_config_missing"
    | some config => .ok (.placeholder config)

structure Args where
  mode : Option Mode
  testMode : Bool

inductive Launch
  | invalid (errors : List ConfigError)
  | refused (message : String)
  | exits (code : ℕ) (event : String)
  | trades (config : Settings) (strategy : LaunchedStrategy)

/-- `amain` up to the start of the scheduler. -/
def amain (runtime : Runtime) (args : Args) (file : SettingsFile) (env : Environment) : Launch :=
  match loadConfig file env args.mode with
  | .error errors => .invalid errors
  | .ok config =>
    match if args.testMode then config.applyTestMode else .ok config with
    | .error message => .refused message
    | .ok config =>
      match config.selectStrategy runtime with
      | .error event => .exits 2 event
      | .ok strategy => .trades config strategy

inductive Process
  | placeholder (s : Placeholding)
  | llmAssessor (s : Throttled)

def Process.agent : Process → Agent
  | .placeholder s => s.agent
  | .llmAssessor s => s.agent

inductive ProcessStep
  | placeholder (l : PlaceholderStep)
  | llmAssessor (l : ThrottleStep)

def LaunchedStrategy.start (agent : Agent) (now : ℚ) : LaunchedStrategy → Process
  | .placeholder _ => .placeholder ⟨agent, none, now, []⟩
  | .llmAssessor _ _ => .llmAssessor ⟨agent, []⟩

def processStep (cfg : Config) (strategy : LaunchedStrategy) (p : Process) (l : ProcessStep) :
    Option Process :=
  match strategy, p, l with
  | .placeholder config, .placeholder s, .placeholder l =>
    (placeholderStep cfg config s l).map .placeholder
  | .llmAssessor config assessor, .llmAssessor s, .llmAssessor l =>
    (throttleStep cfg config assessor s l).map .llmAssessor
  | _, _, _ => none

/-- What a live process was asked to do, and what it does it with. -/
structure LiveLaunch (args : Args) (file : SettingsFile) (config : Settings) : Prop where
  untested : args.testMode = false
  asked : args.mode = some .live ∨ args.mode = none ∧ file.mode = some "live"
  urls : config.kalshiBaseUrl = file.kalshi.baseUrlLive ∧ config.kalshiWsUrl = file.kalshi.wsUrlLive
  asWritten : ∃ h, config.toConfig = file.config h

/-- What an order of a live process may come of: a tick of its run and the agent that this tick began
with, by the file alone. -/
inductive Licensed (runtime : Runtime) (file : SettingsFile) (cfg : Config) (strategy : LaunchedStrategy)
    (start : Process) (steps : List ProcessStep) (order : OrderTerms) : Prop
  | placeholder (config : PlaceholderStrategyConfig) (before after : List ProcessStep)
    (t : PlaceholderTick) (s : Placeholding) (c : AtCheck) (active : file.strategy.active = .placeholder)
    (configured : file.strategy.placeholder = some config)
    (allowed : file.strategy.allowPlaceholderLive = true)
    (ticked : steps = before ++ .placeholder (.tick t) :: after)
    (reached : exec (processStep cfg strategy) start before = some (.placeholder s))
    (emitted : config.signal t.now ∈ (config.generateSignals s.lastEmit t.monotonic t.now).2)
    (placed : OfPlaceholder cfg config ⟨t, s.agent⟩ c order)
  | llmAssessor (la : LLMAssessorStrategyConfig) (before after : List ProcessStep) (t : Tick)
    (s : Throttled) (active : file.strategy.active = .llmAssessor)
    (configured : file.strategy.llmAssessor = some la)
    (ticked : steps = before ++ .llmAssessor (.tick t) :: after)
    (reached : exec (processStep cfg strategy) start before = some (.llmAssessor s))
    (warranted : Warranted cfg (la.discovery runtime file.markets.whitelistCategories)
      (la.assessor runtime) s.agent t order)

section Loading
variable {runtime : Runtime} {args : Args} {file : SettingsFile} {env : Environment}
  {config : Settings} {strategy : LaunchedStrategy}

structure Loaded (file : SettingsFile) (modeOverride : Option Mode) (config : Settings) : Prop where
  mode : readMode (modeText file modeOverride) = .ok config.mode
  asWritten : ∃ h, config.toConfig = file.config h
  kalshi : config.kalshi = file.kalshi
  strategy : config.strategy = file.strategy
  validated : validateStrategyMode config.mode config.strategy = none

theorem loadConfig_ok {modeOverride : Option Mode} (h : loadConfig file env modeOverride = .ok config) :
    Loaded file modeOverride config := by
  unfold loadConfig at h
  split at h
  · cases h
  unfold modelValidate at h
  split at h
  case h_1 => cases h
  case h_2 mode hmode =>
    split_ifs at h with hrisk
    split at h
    case h_1 => cases h
    case h_2 hvalid =>
      cases h
      exact ⟨hmode, ⟨hrisk, rfl⟩, rfl, rfl, hvalid⟩

theorem readMode_live {mode : Option String} (h : readMode mode = .ok .live) : mode = some "live" := by
  unfold readMode at h
  split at h
  · cases h
  · split_ifs at h with hpaper hlive
    · cases h
    · exact congrArg some hlive

theorem modeText_live {modeOverride : Option Mode} (h : modeText file modeOverride = some "live") :
    modeOverride = some .live ∨ modeOverride = none ∧ file.mode = some "live" := by
  cases modeOverride with
  | none => exact .inr ⟨rfl, h⟩
  | some mode =>
    cases mode with
    | paper => exact absurd (Option.some.inj h) (by decide)
    | live => exact .inl rfl

/-- The test mode never leads to a live process, and without it nothing is changed. -/
theorem amain_trades (h : amain runtime args file env = .trades config strategy)
    (hlive : config.mode = .live) :
    args.testMode = false ∧ loadConfig file env args.mode = .ok config ∧
      config.selectStrategy runtime = .ok strategy := by
  unfold amain at h
  split at h
  case h_1 => cases h
  case h_2 loaded hloaded =>
    split at h
    case h_1 => cases h
    case h_2 tested htested =>
      split at h
      case h_1 => cases h
      case h_2 selected hselected =>
        cases h
        cases htest : args.testMode with
        | false =>
          rw [htest] at htested
          cases htested
          exact ⟨rfl, hloaded, hselected⟩
        | true =>
          rw [htest, if_pos rfl, Settings.applyTestMode] at htested
          split_ifs at htested with hmode
          cases htested
          exact absurd hlive hmode

theorem amain_live (h : amain runtime args file env = .trades config strategy)
    (hlive : config.mode = .live) : LiveLaunch args file config := by
  obtain ⟨huntested, hloaded, _⟩ := amain_trades h hlive
  have hload := loadConfig_ok hloaded
  have hmode := hload.mode
  rw [hlive] at hmode
  refine ⟨huntested, modeText_live (readMode_live hmode), ?_, hload.asWritten⟩
  rw [Settings.kalshiBaseUrl, Settings.kalshiWsUrl, if_pos hlive, if_pos hlive, hload.kalshi]
  exact ⟨rfl, rfl⟩

theorem selectStrategy_ok (h : config.selectStrategy runtime = .ok strategy) :
    (∃ block, config.strategy.active = .placeholder ∧ config.strategy.placeholder = some block ∧
      strategy = .placeholder block) ∨
    ∃ la, config.strategy.active = .llmAssessor ∧ config.strategy.llmAssessor = some la ∧
      strategy = .llmAssessor (la.discovery runtime config.markets.whitelistCategories)
        (la.assessor runtime) := by
  unfold Settings.selectStrategy at h
  split at h
  case h_1 hactive =>
    split_ifs at h
    split at h
    case h_1 => cases h
    case h_2 la hla =>
      split_ifs at h
      cases h
      exact .inr ⟨la, hactive, hla, rfl⟩
  case h_2 hactive =>
    split at h
    case h_1 => cases h
    case h_2 block hblock =>
      cases h
      exact .inl ⟨block, hactive, hblock, rfl⟩

theorem validated_placeholder {mode : Mode} {strategy : StrategyConfig}
    (h : validateStrategyMode mode strategy = none) (hlive : mode = .live)
    (hactive : strategy.active = .placeholder) : strategy.allowPlaceholderLive = true := by
  unfold validateStrategyMode at h
  split_ifs at h with hblock hassessor hrefused
  by_contra hforbidden
  exact hrefused ⟨hlive, hactive, hforbidden⟩

end Loading

section Orders
variable {cfg : Config} {strategy : LaunchedStrategy} {p p' : Process} {order : OrderTerms}

theorem placeholderStep_terms {config : PlaceholderStrategyConfig} {s s' : Placeholding}
    {l : PlaceholderStep} (h : placeholderStep cfg config s l = some s')
    (horder : order ∈ s'.agent.db.terms) :
    order ∈ s.agent.db.terms ∨ ∃ t c, l = .tick t ∧
      config.signal t.now ∈ (config.generateSignals s.lastEmit t.monotonic t.now).2 ∧
      OfPlaceholder cfg config ⟨t, s.agent⟩ c order := by
  cases l with
  | meanwhile m =>
    cases h
    exact .inl ((m.keepsAudit s.agent).2 ▸ horder)
  | tick t =>
    unfold placeholderStep at h
    dsimp only at h
    split_ifs at h
    cases h
    dsimp only at horder
    rcases handleSignals_places horder with hold | ⟨k, signal, c, hturn, hplaces⟩
    · exact .inl hold
    · have hsignal := List.mem_of_getElem? hturn
      obtain rfl := config.generateSignals_mem hsignal
      obtain rfl := config.generateSignals_turn hturn
      exact .inr ⟨t, c, rfl, hsignal, Places.ofPlaceholder (e := ⟨t, s.agent⟩) hplaces⟩

inductive Sourced (cfg : Config) (order : OrderTerms) :
    LaunchedStrategy → Process → ProcessStep → Prop
  | placeholder (config : PlaceholderStrategyConfig) (s : Placeholding) (t : PlaceholderTick)
    (c : AtCheck)
    (emitted : config.signal t.now ∈ (config.generateSignals s.lastEmit t.monotonic t.now).2)
    (placed : OfPlaceholder cfg config ⟨t, s.agent⟩ c order) :
    Sourced cfg order (.placeholder config) (.placeholder s) (.placeholder (.tick t))
  | llmAssessor (config : DiscoveryConfig) (assessor : Assessor) (s : Throttled) (t : Tick)
    (warranted : Warranted cfg config assessor s.agent t order) :
    Sourced cfg order (.llmAssessor config assessor) (.llmAssessor s) (.llmAssessor (.tick t))

theorem processStep_terms {l : ProcessStep} (h : processStep cfg strategy p l = some p')
    (horder : order ∈ p'.agent.db.terms) :
    order ∈ p.agent.db.terms ∨ Sourced cfg order strategy p l := by
  unfold processStep at h
  split at h
  case h_1 config s l =>
    obtain ⟨s', hstep, rfl⟩ := Option.map_eq_some_iff.mp h
    rcases placeholderStep_terms hstep horder with hold | ⟨t, c, rfl, hemitted, hplaced⟩
    · exact .inl hold
    · exact .inr (.placeholder config s t c hemitted hplaced)
  case h_2 config assessor s l =>
    obtain ⟨s', hstep, rfl⟩ := Option.map_eq_some_iff.mp h
    rcases throttleStep_terms hstep horder with hold | ⟨t, rfl, hwarranted⟩
    · exact .inl hold
    · exact .inr (.llmAssessor config assessor s t hwarranted)
  case h_3 => cases h

theorem LaunchedStrategy.start_agent (strategy : LaunchedStrategy) (agent : Agent) (now : ℚ) :
    (strategy.start agent now).agent = agent := by
  cases strategy <;> rfl

end Orders

/-- A process that trades in live mode was asked to and is not in test mode. It trades by the thresholds
of its file, and every order that it ever adds is licensed by the file. -/
theorem live_orders {runtime : Runtime} {args : Args} {file : SettingsFile} {env : Environment}
    {config : Settings} {strategy : LaunchedStrategy}
    (h : amain runtime args file env = .trades config strategy) (hlive : config.mode = .live)
    (agent : Agent) (now : ℚ) (steps : List ProcessStep) :
    LiveLaunch args file config ∧
      ∀ p, exec (processStep config.toConfig strategy) (strategy.start agent now) steps = some p →
        ∀ order ∈ p.agent.db.terms, order ∈ agent.db.terms ∨
          Licensed runtime file config.toConfig strategy (strategy.start agent now) steps order := by
  have hlaunch := amain_live h hlive
  refine ⟨hlaunch, fun p hrun order horder => ?_⟩
  obtain ⟨_, hloaded, hselected⟩ := amain_trades h hlive
  have hload := loadConfig_ok hloaded
  have hmarkets : config.markets = file.markets := by
    obtain ⟨hrisk, hconfig⟩ := hload.asWritten
    rw [hconfig]
    rfl
  have horigin := exec_origin (P := fun (p : Process) order => order ∈ p.agent.db.terms)
    (Q := fun p l order => Sourced config.toConfig order strategy p l)
    (fun _ _ _ hstep _ hx => processStep_terms hstep hx) hrun horder
  rcases horigin with hstart | ⟨before, l, after, u, rfl, hbefore, hsourced⟩
  · rw [strategy.start_agent] at hstart
    exact .inl hstart
  rcases selectStrategy_ok hselected with ⟨block, hactive, hblock, rfl⟩ | ⟨la, hactive, hla, rfl⟩
  · have hallowed := validated_placeholder hload.validated hlive hactive
    rw [hload.strategy] at hactive hblock hallowed
    cases hsourced with
    | placeholder _ s t c hemitted hplaced =>
      exact .inr (.placeholder block before after t s c hactive hblock hallowed rfl hbefore hemitted
        hplaced)
  · rw [hload.strategy] at hactive hla
    cases hsourced with
    | llmAssessor _ _ s t hwarranted =>
      rw [hmarkets] at hwarranted hbefore ⊢
      exact .inr (.llmAssessor la before after t s hactive hla rfl hbefore hwarranted)

def exampleAssessor : LLMAssessorStrategyConfig :=
  ⟨["FED"], ["economics"], 20, 100, 2, 5, .finite (4 / 100), .finite (6 / 10), 10, 1800⟩

def exampleFile : SettingsFile where
  mode := some "paper"
  kalshi := ⟨"https://demo-api.kalshi.co/trade-api/v2", "https://api.elections.kalshi.com/trade-api/v2",
    "wss://demo-api.kalshi.co/trade-api/ws/v2", "wss://api.elections.kalshi.com/trade-api/ws/v2"⟩
  risk := ⟨25, 200, 50, 50, 10, 200, 1 / 4, 1 / 20, 5, 60⟩
  fees := ⟨7 / 100, true⟩
  markets := ⟨[], []⟩
  displayTimezone := .fixed 0
  strategy := ⟨.llmAssessor, none, some exampleAssessor, false⟩

def plainRuntime : Runtime := ⟨id, plainAssessor.reads, plainAssessor.text⟩

theorem exampleFile_errors : exampleFile.risk.errors = [] := by decide +kernel

def exampleSettings : Settings where
  toConfig := exampleFile.config exampleFile_errors
  mode := .live
  kalshi := exampleFile.kalshi
  strategy := exampleFile.strategy
  secrets := ⟨"key", "key.pem", "token", some "sk"⟩

def exampleStrategy : LaunchedStrategy :=
  .llmAssessor (exampleAssessor.discovery plainRuntime []) (exampleAssessor.assessor plainRuntime)

theorem amain_example :
    amain plainRuntime ⟨some .live, false⟩ exampleFile
      ⟨some "key", some "key.pem", some "token", some "sk"⟩ = .trades exampleSettings exampleStrategy := by
  have hmode : readMode (modeText exampleFile (some .live)) = .ok .live := by decide
  have hload : loadConfig exampleFile ⟨some "key", some "key.pem", some "token", some "sk"⟩
      (some .live) = .ok exampleSettings := by
    rw [loadConfig, Environment.secrets]
    dsimp only
    rw [modelValidate, hmode]
    dsimp only
    rw [dif_pos exampleFile_errors]
    rfl
  rw [amain, hload]
  rfl

theorem live_orders_example :
    ∃ p order, exec (processStep exampleSettings.toConfig exampleStrategy)
        (exampleStrategy.start ⟨.empty, ⟨none⟩, .start⟩ 0) [.llmAssessor (.tick certainTick)] = some p ∧
      order ∈ p.agent.db.terms ∧ order.count = 10 ∧
      LiveLaunch ⟨some .live, false⟩ exampleFile exampleSettings ∧
      (order ∈ Db.empty.terms ∨
        Licensed plainRuntime exampleFile exampleSettings.toConfig exampleStrategy
          (exampleStrategy.start ⟨.empty, ⟨none⟩, .start⟩ 0) [.llmAssessor (.tick certainTick)]
          order) := by
  have hrun : (exec (processStep exampleSettings.toConfig exampleStrategy)
      (exampleStrategy.start ⟨.empty, ⟨none⟩, .start⟩ 0) [.llmAssessor (.tick certainTick)]).map
        (fun p => p.agent.db.terms) =
      some [⟨"c1", "FED", .yes, .buy, 10, ⟨5000⟩, some 1⟩] := by
    decide +kernel
  obtain ⟨p, hp, hterms⟩ := Option.map_eq_some_iff.mp hrun
  have hnew := hterms ▸
    List.mem_singleton_self (⟨"c1", "FED", .yes, .buy, 10, ⟨5000⟩, some 1⟩ : OrderTerms)
  obtain ⟨hlaunch, horders⟩ :=
    live_orders amain_example rfl ⟨.empty, ⟨none⟩, .start⟩ 0 [.llmAssessor (.tick certainTick)]
  exact ⟨p, _, hp, hnew, rfl, hlaunch, horders p hp _ hnew⟩

end KalshiAgent

import KalshiAgent.Lib.Text
import KalshiAgent.Strategies.Assessor

/-! Market discovery: the open markets are scanned page by page until enough of them pass. -/

namespace KalshiAgent

structure DiscoveryConfig where
  tickers : List Ticker
  -- lowercased already
  categories : List String
  maxPerTick : ℕ
  minVolume : ℤ
  minHoursToClose : Time
  discoveryMaxPages : ℕ
  minBetween : Time
  -- `str.lower`
  lower : String → String

structure ListedMarket extends AssessedMarket where
  category : Option String
  volume : Option ℤ

structure Scanned where
  market : ListedMarket
  checkedAt : Time

abbrev MarketPage := List Scanned × Option String

def orDefault (text : Option String) (default : String) : String :=
  if given text then text.getD default else default

namespace DiscoveryConfig
variable (config : DiscoveryConfig)

def wasRecentlySignalled (db : Db) (ticker : Ticker) (now : Time) : Bool :=
  let cutoff := now - config.minBetween
  db.decisions.any (fun row =>
    row.marketTicker = ticker ∧ row.strategy = strategyName ∧ cutoff ≤ row.createdAt)

/-- An aware close time ahead of the cutoff; a naive one is not compared with it. -/
def closesSoon (closeTime : Option CloseTime) (closeCutoff : Time) : Except PyError Bool :=
  match closeTime with
  | none => .ok false
  | some close => if close.aware then .ok (close.time < closeCutoff) else .error .typeError

def rejectReason (m : ListedMarket) (closeCutoff : Time) : Except PyError (Option String) :=
  if !m.active then
    .ok (some ("status:" ++ orDefault m.status "none"))
  else if !PriceText.given m.yesAskDollars || !PriceText.given m.noAskDollars then
    .ok (some "no_ask_price")
  else if config.categories ≠ [] ∧ config.lower (m.category.getD "") ∉ config.categories then
    .ok (some ("category:" ++ orDefault m.category "none"))
  else if m.volume.any (fun volume => volume < config.minVolume) then .ok (some "low_volume")
  else
    match closesSoon m.closeTime closeCutoff with
    | .error e => .error e
    | .ok soon => .ok (if soon then some "imminent_close" else none)

/-- The loop over one page: the candidates so far, and whether there are enough of them. -/
def scanPage (db : Db) (closeCutoff : Time) (candidates : List Scanned) :
    List Scanned → Except PyError (List Scanned × Bool)
  | [] => .ok (candidates, false)
  | m :: rest =>
    match config.rejectReason m.market closeCutoff with
    | .error e => .error e
    | .ok (some _) => scanPage db closeCutoff candidates rest
    | .ok none =>
      if config.wasRecentlySignalled db m.market.ticker m.checkedAt then
        scanPage db closeCutoff candidates rest
      else
        let candidates := candidates ++ [m]
        if config.maxPerTick ≤ candidates.length then .ok (candidates, true)
        else scanPage db closeCutoff candidates rest

end DiscoveryConfig

inductive DiscoveryError
  | client (e : ClientError)
  | python (e : PyError)

structure Discovery where
  outcome : Except DiscoveryError (List Scanned)
  requests : List (Option String)

namespace DiscoveryConfig
variable (config : DiscoveryConfig)

/-- The loop over the pages, of which `pagesLeft` may still be requested; `replies` are the ends of
the requests in their order. -/
def discoverPages (db : Db) (closeCutoff : Time) (replies : ℕ → Except ClientError MarketPage) :
    (pagesLeft i : ℕ) → (cursor : Option String) → List Scanned → Discovery
  | 0, _, _, candidates => ⟨.ok candidates, []⟩
  | pagesLeft + 1, i, cursor, candidates =>
    match replies i with
    | .error (.api _ _) => ⟨.ok candidates, [cursor]⟩
    | .error e => ⟨.error (.client e), [cursor]⟩
    | .ok (markets, next) =>
      match config.scanPage db closeCutoff candidates markets with
      | .error e => ⟨.error (.python e), [cursor]⟩
      | .ok (candidates, true) => ⟨.ok candidates, [cursor]⟩
      | .ok (candidates, false) =>
        if !given next then ⟨.ok candidates, [cursor]⟩
        else
          let later := discoverPages db closeCutoff replies pagesLeft (i + 1) next candidates
          { later with requests := cursor :: later.requests }

def discover (db : Db) (now : Time) (replies : ℕ → Except ClientError MarketPage) : Discovery :=
  config.discoverPages db (now + config.minHoursToClose) replies config.discoveryMaxPages 0 none []

end DiscoveryConfig

/-- A page as the server gives it, or the `KalshiAPIError` that its fetch ends with. -/
inductive ServerPage
  | page (markets : List Scanned) (cursor : Option String)
  | apiError (statusCode : ℕ) (body : String)

def ServerPage.reply : ServerPage → Except ClientError MarketPage
  | .page markets cursor => .ok (markets, cursor)
  | .apiError statusCode body => .error (.api statusCode body)

/-- The pages before the first failure, the first missing cursor and the page limit. -/
def reachable (pages : ℕ → ServerPage) : (pagesLeft i : ℕ) → List (List Scanned)
  | 0, _ => []
  | pagesLeft + 1, i =>
    match pages i with
    | .apiError _ _ => []
    | .page markets cursor =>
      markets :: if !given cursor then [] else reachable pages pagesLeft (i + 1)

def cursorAt (pages : ℕ → ServerPage) : ℕ → Option String
  | 0 => none
  | i + 1 =>
    match pages i with
    | .page _ cursor => cursor
    | .apiError _ _ => none

namespace DiscoveryConfig
variable (config : DiscoveryConfig) (db : Db) (closeCutoff : Time)

def passes (m : Scanned) : Bool :=
  match config.rejectReason m.market closeCutoff with
  | .ok none => !config.wasRecentlySignalled db m.market.ticker m.checkedAt
  | _ => false

def raises (m : Scanned) : Bool :=
  match config.rejectReason m.market closeCutoff with
  | .error _ => true
  | .ok _ => false

def kept (ms : List Scanned) : List Scanned := ms.filter (config.passes db closeCutoff)

/-- Discovery is the first markets that are kept, each page is requested by the cursor of the one
before, and none after the page that completes the result. -/
structure DiscoversAsSpecified (now : Time) (pages : ℕ → ServerPage) : Prop where
  outcome : (config.discover db now (fun i => (pages i).reply)).outcome =
    .ok ((config.kept db (now + config.minHoursToClose)
      (reachable pages config.discoveryMaxPages 0).flatten).take config.maxPerTick)
  cursors : (config.discover db now (fun i => (pages i).reply)).requests =
    (List.range (config.discover db now (fun i => (pages i).reply)).requests.length).map
      (cursorAt pages)
  stops : ∀ j, (config.kept db (now + config.minHoursToClose)
      ((reachable pages config.discoveryMaxPages 0).take j).flatten).length < config.maxPerTick →
    config.maxPerTick ≤ (config.kept db (now + config.minHoursToClose)
      ((reachable pages config.discoveryMaxPages 0).take (j + 1)).flatten).length →
    (config.discover db now (fun i => (pages i).reply)).requests.length ≤ j + 1

/-- The condition: a market that the filters raise on comes only after the result is complete, and
where no market is asked for, none is there to be kept. -/
def ScansCleanly (ms : List Scanned) : Prop :=
  if config.maxPerTick = 0 then
    ∀ m ∈ ms, config.passes db closeCutoff m = false ∧ config.raises closeCutoff m = false
  else
    ∀ before m after, ms = before ++ m :: after → config.raises closeCutoff m = true →
      config.maxPerTick ≤ (config.kept db closeCutoff before).length

section Scan
variable {config db closeCutoff}

theorem scanPage_cases (m : Scanned) :
    (config.raises closeCutoff m = true ∧ ∃ e, ∀ candidates rest,
        config.scanPage db closeCutoff candidates (m :: rest) = .error e) ∨
      (config.raises closeCutoff m = false ∧ config.passes db closeCutoff m = false ∧
        ∀ candidates rest, config.scanPage db closeCutoff candidates (m :: rest) =
          config.scanPage db closeCutoff candidates rest) ∨
      (config.raises closeCutoff m = false ∧ config.passes db closeCutoff m = true ∧
        ∀ candidates rest, config.scanPage db closeCutoff candidates (m :: rest) =
          if config.maxPerTick ≤ candidates.length + 1 then .ok (candidates ++ [m], true)
          else config.scanPage db closeCutoff (candidates ++ [m]) rest) := by
  unfold raises passes
  cases hreason : config.rejectReason m.market closeCutoff with
  | error e =>
    refine .inl ⟨rfl, e, fun candidates rest => ?_⟩
    rw [scanPage, hreason]
  | ok reason =>
    cases reason with
    | some text =>
      refine .inr (.inl ⟨rfl, rfl, fun candidates rest => ?_⟩)
      rw [scanPage, hreason]
    | none =>
      cases hrecent : config.wasRecentlySignalled db m.market.ticker m.checkedAt with
      | true =>
        refine .inr (.inl ⟨rfl, rfl, fun candidates rest => ?_⟩)
        rw [scanPage, hreason]
        dsimp only
        rw [hrecent, if_pos rfl]
      | false =>
        refine .inr (.inr ⟨rfl, rfl, fun candidates rest => ?_⟩)
        rw [scanPage, hreason]
        dsimp only
        rw [hrecent, if_neg Bool.false_ne_true, List.length_append]
        rfl

theorem scanPage_append (candidates xs ys : List Scanned) :
    config.scanPage db closeCutoff candidates (xs ++ ys) =
      match config.scanPage db closeCutoff candidates xs with
      | .error e => .error e
      | .ok (candidates, true) => .ok (candidates, true)
      | .ok (candidates, false) => config.scanPage db closeCutoff candidates ys := by
  induction xs generalizing candidates with
  | nil => rfl
  | cons m xs ih =>
    rw [List.cons_append]
    rcases @scanPage_cases config db closeCutoff m with ⟨_, e, hscan⟩ | ⟨_, _, hscan⟩ | ⟨_, _, hscan⟩
    · rw [hscan, hscan]
    · rw [hscan, hscan]
      exact ih candidates
    · rw [hscan, hscan]
      split_ifs
      · rfl
      · exact ih _

theorem kept_cons_of_pass {m : Scanned} (h : config.passes db closeCutoff m = true)
    (ms : List Scanned) :
    config.kept db closeCutoff (m :: ms) = m :: config.kept db closeCutoff ms :=
  List.filter_cons_of_pos h

theorem kept_cons_of_not_pass {m : Scanned} (h : config.passes db closeCutoff m = false)
    (ms : List Scanned) : config.kept db closeCutoff (m :: ms) = config.kept db closeCutoff ms :=
  List.filter_cons_of_neg (h ▸ Bool.false_ne_true)

theorem kept_append (xs ys : List Scanned) :
    config.kept db closeCutoff (xs ++ ys) =
      config.kept db closeCutoff xs ++ config.kept db closeCutoff ys :=
  List.filter_append xs ys

theorem forall_split_cons {α : Type*} {x : α} {xs : List α} {P : List α → α → Prop} :
    (∀ before m after, x :: xs = before ++ m :: after → P before m) ↔
      P [] x ∧ ∀ before m after, xs = before ++ m :: after → P (x :: before) m := by
  constructor
  · intro h
    refine ⟨h [] x xs rfl, fun before m after heq => ?_⟩
    exact h (x :: before) m after (congrArg (x :: ·) heq)
  · rintro ⟨hfirst, hlater⟩ (_ | ⟨y, before⟩) m after heq
    · obtain ⟨rfl, rfl⟩ := List.cons.inj heq
      exact hfirst
    · obtain ⟨rfl, rfl⟩ := List.cons.inj heq
      exact hlater before m after rfl

/-- Short of the limit, a scan gives the first kept markets when nothing raises before them. -/
theorem scanPage_outcome_iff {candidates : List Scanned} (ms : List Scanned)
    (hshort : candidates.length < config.maxPerTick) :
    (config.scanPage db closeCutoff candidates ms).map Prod.fst =
        .ok (candidates ++
          (config.kept db closeCutoff ms).take (config.maxPerTick - candidates.length)) ↔
      ∀ before m after, ms = before ++ m :: after → config.raises closeCutoff m = true →
        config.maxPerTick ≤ candidates.length + (config.kept db closeCutoff before).length := by
  induction ms generalizing candidates with
  | nil =>
    refine iff_of_true ?_ ?_
    · show Except.ok candidates = Except.ok (candidates ++ List.take _ [])
      rw [List.take_nil, List.append_nil]
    · intro before m after hnil
      exact absurd hnil (List.append_ne_nil_of_right_ne_nil before (List.cons_ne_nil m after)).symm
  | cons m ms ih =>
    rw [forall_split_cons]
    rcases @scanPage_cases config db closeCutoff m with ⟨hraises, e, hscan⟩ |
      ⟨hraises, hpass, hscan⟩ | ⟨hraises, hpass, hscan⟩
    · rw [hscan]
      refine iff_of_false nofun (fun h => ?_)
      exact absurd (h.1 hraises) (not_le.mpr hshort)
    · rw [hscan, kept_cons_of_not_pass hpass, ih hshort]
      simp only [kept_cons_of_not_pass hpass, hraises, Bool.false_eq_true, false_imp_iff, true_and]
    · rw [hscan, kept_cons_of_pass hpass]
      simp only [kept_cons_of_pass hpass, hraises, Bool.false_eq_true, false_imp_iff, true_and,
        List.length_cons]
      split_ifs with hfull
      · have hone : config.maxPerTick - candidates.length = 1 := by omega
        rw [hone, List.take_succ_cons, List.take_zero]
        refine iff_of_true rfl (fun before x after _ _ => ?_)
        omega
      · have hlength : (candidates ++ [m]).length = candidates.length + 1 := List.length_append
        have hnext : (candidates ++ [m]).length < config.maxPerTick := by omega
        have hleft : config.maxPerTick - candidates.length =
            (config.maxPerTick - (candidates ++ [m]).length) + 1 := by omega
        have hih := ih hnext
        rw [List.append_assoc, List.singleton_append, ← List.take_succ_cons, ← hleft] at hih
        rw [hih, hlength]
        simp only [Nat.add_assoc, Nat.add_comm 1]

theorem scanPage_zero_iff (hzero : config.maxPerTick = 0) (ms : List Scanned) :
    (config.scanPage db closeCutoff [] ms).map Prod.fst = .ok [] ↔
      ∀ m ∈ ms, config.passes db closeCutoff m = false ∧ config.raises closeCutoff m = false := by
  induction ms with
  | nil =>
    apply iff_of_true
    · rfl
    · exact List.forall_mem_nil _
  | cons m ms ih =>
    rw [List.forall_mem_cons]
    rcases @scanPage_cases config db closeCutoff m with ⟨hraises, e, hscan⟩ |
      ⟨hraises, hpass, hscan⟩ | ⟨hraises, hpass, hscan⟩
    · rw [hscan, hraises]
      exact iff_of_false nofun (fun h => absurd h.1.2 Bool.false_ne_true.symm)
    · rw [hscan, ih, hpass, hraises]
      exact (and_iff_right ⟨rfl, rfl⟩).symm
    · rw [hscan, if_pos (hzero ▸ Nat.zero_le _), hpass]
      refine iff_of_false ?_ (fun h => absurd h.1.1 Bool.false_ne_true.symm)
      show ¬ (Except.ok [m] : Except PyError (List Scanned)) = Except.ok []
      exact fun h => List.cons_ne_nil m [] (Except.ok.inj h)

theorem scanPage_incomplete {candidates found ms : List Scanned}
    (hshort : candidates.length < config.maxPerTick)
    (h : config.scanPage db closeCutoff candidates ms = .ok (found, false)) :
    found.length = candidates.length + (config.kept db closeCutoff ms).length ∧
      found.length < config.maxPerTick := by
  induction ms generalizing candidates with
  | nil =>
    cases h
    exact ⟨rfl, hshort⟩
  | cons m ms ih =>
    rcases @scanPage_cases config db closeCutoff m with ⟨_, e, hscan⟩ | ⟨_, hpass, hscan⟩ |
      ⟨_, hpass, hscan⟩
    · rw [hscan] at h
      cases h
    · rw [hscan] at h
      rw [kept_cons_of_not_pass hpass]
      exact ih hshort h
    · rw [hscan] at h
      split_ifs at h with hfull
      · cases h
      · have hlength : (candidates ++ [m]).length = candidates.length + 1 := List.length_append
        obtain ⟨hfound, hless⟩ := ih (hlength ▸ not_le.mp hfull) h
        rw [kept_cons_of_pass hpass, List.length_cons]
        exact ⟨by omega, hless⟩

end Scan

theorem mapError_eq_ok {e : Except PyError (List Scanned)} {found : List Scanned} :
    e.mapError DiscoveryError.python = .ok found ↔ e = .ok found := by
  cases e with
  | error e => exact iff_of_false nofun nofun
  | ok ms => exact ⟨fun h => congrArg _ (Except.ok.inj h), fun h => congrArg _ (Except.ok.inj h)⟩

section Pages
variable {config db closeCutoff} {pages : ℕ → ServerPage}

/-- The pages are scanned like one list. -/
theorem discoverPages_outcome (pagesLeft i : ℕ) (cursor : Option String)
    (candidates : List Scanned) :
    (config.discoverPages db closeCutoff (fun i => (pages i).reply) pagesLeft i cursor
        candidates).outcome =
      ((config.scanPage db closeCutoff candidates (reachable pages pagesLeft i).flatten).map
        Prod.fst).mapError .python := by
  induction pagesLeft generalizing i cursor candidates with
  | zero => rfl
  | succ pagesLeft ih =>
    unfold discoverPages reachable
    cases pages i with
    | apiError statusCode body => rfl
    | page markets next =>
      rw [List.flatten_cons, scanPage_append]
      dsimp only [ServerPage.reply]
      rcases config.scanPage db closeCutoff candidates markets with e | ⟨found, _ | _⟩
      · rfl
      · dsimp only
        split_ifs
        · rfl
        · exact ih (i + 1) next found
      · rfl

theorem discoverPages_stops {candidates : List Scanned} (pagesLeft i j : ℕ)
    (cursor : Option String) (hshort : candidates.length < config.maxPerTick)
    (hcomplete : config.maxPerTick ≤ candidates.length +
      (config.kept db closeCutoff ((reachable pages pagesLeft i).take (j + 1)).flatten).length) :
    (config.discoverPages db closeCutoff (fun i => (pages i).reply) pagesLeft i cursor
      candidates).requests.length ≤ j + 1 := by
  induction pagesLeft generalizing i j cursor candidates with
  | zero => exact Nat.zero_le _
  | succ pagesLeft ih =>
    unfold discoverPages
    unfold reachable at hcomplete
    have hone : 1 ≤ j + 1 := Nat.le_add_left 1 j
    cases hpage : pages i with
    | apiError statusCode body => exact hone
    | page markets next =>
      rw [hpage] at hcomplete
      dsimp only at hcomplete
      rw [List.take_succ_cons, List.flatten_cons] at hcomplete
      rw [kept_append, List.length_append] at hcomplete
      dsimp only [ServerPage.reply]
      rcases hscan : config.scanPage db closeCutoff candidates markets with e | ⟨found, _ | _⟩
      · exact hone
      · dsimp only
        obtain ⟨hfound, hless⟩ := scanPage_incomplete hshort hscan
        split_ifs at hcomplete ⊢ with hcursor
        · exact hone
        · cases j with
          | zero =>
            rw [List.take_zero] at hcomplete
            have hnil : (config.kept db closeCutoff (List.flatten [])).length = 0 := rfl
            omega
          | succ j =>
            apply Nat.succ_le_succ
            apply ih (i + 1) j next hless
            rw [hfound, Nat.add_assoc]
            exact hcomplete
      · exact hone

theorem discoverPages_cursors (replies : ℕ → ServerPage) (pagesLeft i : ℕ)
    (candidates : List Scanned) :
    (config.discoverPages db closeCutoff (fun i => (replies i).reply) pagesLeft i
        (cursorAt replies i) candidates).requests =
      (List.range' i (config.discoverPages db closeCutoff (fun i => (replies i).reply) pagesLeft i
        (cursorAt replies i) candidates).requests.length).map (cursorAt replies) := by
  induction pagesLeft generalizing i candidates with
  | zero => rfl
  | succ pagesLeft ih =>
    unfold discoverPages
    cases hpage : replies i with
    | apiError statusCode body => rfl
    | page markets next =>
      have hnext : next = cursorAt replies (i + 1) := by
        rw [cursorAt, hpage]
      dsimp only [ServerPage.reply]
      rcases config.scanPage db closeCutoff candidates markets with e | ⟨found, _ | _⟩
      · rfl
      · dsimp only
        split_ifs
        · rfl
        · rw [hnext]
          dsimp only
          rw [List.length_cons, List.range'_succ, List.map_cons]
          exact congrArg (cursorAt replies i :: ·) (ih (i + 1) found)
      · rfl

end Pages

/-- For every sequence of pages discovery meets its specification exactly when the scan is clean. -/
theorem discovers_iff_scansCleanly (now : Time) (pages : ℕ → ServerPage) :
    config.DiscoversAsSpecified db now pages ↔
      config.ScansCleanly db (now + config.minHoursToClose)
        (reachable pages config.discoveryMaxPages 0).flatten := by
  have houtcome : (config.discover db now (fun i => (pages i).reply)).outcome = _ :=
    discoverPages_outcome config.discoveryMaxPages 0 none []
  have hcursors : (config.discover db now (fun i => (pages i).reply)).requests = _ :=
    discoverPages_cursors pages config.discoveryMaxPages 0 []
  rw [← List.range_eq_range'] at hcursors
  unfold ScansCleanly
  split_ifs with hzero
  · rw [← scanPage_zero_iff hzero, ← mapError_eq_ok]
    constructor
    · intro h
      have hfound := houtcome.symm.trans h.outcome
      rwa [hzero, List.take_zero] at hfound
    · intro h
      refine ⟨?_, hcursors, fun j hshort _ => ?_⟩
      · rw [houtcome, h, hzero, List.take_zero]
      · rw [hzero] at hshort
        exact absurd hshort (Nat.not_lt_zero _)
  · have hshort : ([] : List Scanned).length < config.maxPerTick := Nat.pos_of_ne_zero hzero
    have hscan := @scanPage_outcome_iff config db (now + config.minHoursToClose) []
      (reachable pages config.discoveryMaxPages 0).flatten hshort
    simp only [List.length_nil, Nat.zero_add, Nat.sub_zero, List.nil_append] at hscan
    rw [← hscan, ← mapError_eq_ok]
    constructor
    · intro h
      exact houtcome.symm.trans h.outcome
    · intro h
      refine ⟨houtcome.trans h, hcursors, fun j _ hcomplete => ?_⟩
      apply discoverPages_stops config.discoveryMaxPages 0 j none hshort
      rw [List.length_nil, Nat.zero_add]
      exact hcomplete

def quotedMarket : Scanned where
  market :=
    { ticker := "FED"
      status := some "active"
      yesBidDollars := none
      yesAskDollars := some (.decimal (.finite (40 / 100)))
      noAskDollars := some (.decimal (.finite (62 / 100)))
      closeTime := none
      category := none
      volume := none }
  checkedAt := 0

def noneAsked : DiscoveryConfig where
  tickers := []
  categories := []
  maxPerTick := 0
  minVolume := 0
  minHoursToClose := 0
  discoveryMaxPages := 1
  minBetween := 0
  lower := id

/-- Asked for no market, discovery returns the one that passes. -/
theorem not_discovers_noneAsked :
    ¬ noneAsked.DiscoversAsSpecified Db.empty 0 (fun _ => .page [quotedMarket] none) := by
  intro h
  have hfound : (noneAsked.discover Db.empty 0
      (fun _ => (ServerPage.page [quotedMarket] none).reply)).outcome.toOption.map List.length =
        some 1 := by decide +kernel
  rw [h.outcome] at hfound
  cases hfound

end DiscoveryConfig
end KalshiAgent

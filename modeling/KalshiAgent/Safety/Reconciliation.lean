import KalshiAgent.Storage.Models
import KalshiAgent.Kalshi.Client

/-! The reconciler: the server's position list written over the local rows. The list is first
turned into a dictionary by ticker, so each row is written at most once, and the loops read
the rows as they stood before. -/

namespace KalshiAgent

inductive ReconcileError
  -- ValueError, from `float` on a text that is no number
  | valueError
  deriving DecidableEq

inductive ReconcileResult
  | failed (error : ClientError)
  | ok (discrepancies : List Discrepancy)

def floatOrZero (s : Option DecimalText) : Except ReconcileError ℚ :=
  match truthy s with
  | none => .ok 0
  | some text =>
    match priceStrToDecimal text with
    | none => .error .valueError
    | some d => .ok d

def remoteHolding (position : ℤ) : Side × ℤ :=
  if position = 0 then (.yes, 0) else (if 0 < position then .yes else .no, |position|)

def mirrorRow (lpos : Option Position) (rpos : KalshiPosition) (realized : ℚ) :
    Option (Position × Discrepancy) :=
  let (side, count) := remoteHolding rpos.position
  match lpos with
  | none => some (⟨rpos.ticker, side, count, .zero, realized⟩, .missingLocal rpos.ticker count)
  | some lpos =>
    if lpos.count ≠ count ∨ lpos.side ≠ side then
      some ({ lpos with
          side := side, count := count,
          -- the server's realized PnL is authoritative on a mismatch
          realizedPnlDollars :=
            if (truthy rpos.realizedPnlDollars).isSome then realized else lpos.realizedPnlDollars },
        .mismatch rpos.ticker lpos.side lpos.count side count)
    else none

def mirrorRemote (locals : KeyedTable Position.marketTicker) :
    List KalshiPosition → Except ReconcileError (List (Position × Discrepancy))
  | [] => .ok []
  | rpos :: rest =>
    match floatOrZero rpos.realizedPnlDollars with
    | .error e => .error e
    | .ok realized =>
      match mirrorRemote locals rest with
      | .error e => .error e
      | .ok written =>
        .ok ((mirrorRow (locals.find rpos.ticker) rpos realized).toList ++ written)

/-- A local position absent from the remote list was closed externally. -/
def closeAbsent (remote : KeyedTable KalshiPosition.ticker) (lpos : Position) :
    Option (Position × Discrepancy) :=
  if remote.find lpos.marketTicker = none ∧ lpos.count ≠ 0 then
    some ({ lpos with count := 0 }, .missingRemote lpos.marketTicker lpos.side lpos.count)
  else none

def reconciliationEvent (source : String) (discrepancies : List Discrepancy) : Event :=
  let n := discrepancies.length
  { kind := "reconciliation"
    level := if discrepancies = [] then "info" else "warning"
    message := s!"reconciled ({source}): {n} discrepancies"
    payload := .reconciliation discrepancies source }

def reconcileInner (source : String) (db : Db) (fetched : Except ClientError (List KalshiPosition)) :
    Except ReconcileError (Db × ReconcileResult) :=
  match fetched with
  | .error e => .ok (db, .failed e)
  | .ok remote =>
    let remoteByTicker : KeyedTable KalshiPosition.ticker := .ofList remote
    match mirrorRemote db.positions remoteByTicker.rows with
    | .error e => .error e
    | .ok mirrored =>
      let closed := db.positions.rows.filterMap (closeAbsent remoteByTicker)
      let discrepancies := (mirrored ++ closed).map Prod.snd
      .ok ({ db with
          positions := (db.positions.putAll (mirrored.map Prod.fst)).putAll (closed.map Prod.fst)
          events := db.events ++ [reconciliationEvent source discrepancies] },
        .ok discrepancies)

def remoteRealized (rpos : KalshiPosition) : ℚ :=
  match floatOrZero rpos.realizedPnlDollars with
  | .ok realized => realized
  | .error _ => 0

def mirroredRow (lpos : Option Position) (rpos : KalshiPosition) : Option (Position × Discrepancy) :=
  mirrorRow lpos rpos (remoteRealized rpos)

/-- The row of a ticker after a reconciliation, from its row before and its remote position. -/
def reconciledRow (lpos : Option Position) : Option KalshiPosition → Option Position
  | none => lpos.map (fun lpos => { lpos with count := 0 })
  | some rpos => ((mirroredRow lpos rpos).map Prod.fst).or lpos

theorem mirrorRemote_ok {locals : KeyedTable Position.marketTicker} {remote : List KalshiPosition}
    {written : List (Position × Discrepancy)} (h : mirrorRemote locals remote = .ok written) :
    written = remote.filterMap (fun rpos => mirroredRow (locals.find rpos.ticker) rpos) := by
  induction remote generalizing written with
  | nil => exact (Except.ok.inj h).symm
  | cons rpos rest ih =>
    rw [mirrorRemote] at h
    cases hfloat : floatOrZero rpos.realizedPnlDollars with
    | error e => simp [hfloat] at h
    | ok realized =>
      cases hrest : mirrorRemote locals rest with
      | error e => simp [hfloat, hrest] at h
      | ok tail =>
        simp only [hfloat, hrest, Except.ok.injEq] at h
        have hreal : remoteRealized rpos = realized := by simp [remoteRealized, hfloat]
        rw [← h, ih hrest, List.filterMap_cons, mirroredRow, hreal]
        cases mirrorRow (locals.find rpos.ticker) rpos realized <;> rfl

theorem mirroredRow_ticker {lpos : Option Position} {rpos : KalshiPosition} {p : Position}
    {d : Discrepancy} (hl : ∀ l, lpos = some l → l.marketTicker = rpos.ticker)
    (h : mirroredRow lpos rpos = some (p, d)) : p.marketTicker = rpos.ticker := by
  unfold mirroredRow mirrorRow at h
  cases lpos with
  | none =>
    cases h
    rfl
  | some l =>
    dsimp only at h
    split_ifs at h <;> cases h <;> exact hl l rfl

theorem reconcile_find {source : String} {db db' : Db} {remote : List KalshiPosition}
    {ds : List Discrepancy} (h : reconcileInner source db (.ok remote) = .ok (db', .ok ds))
    (t : Ticker) :
    db'.positions.find t = reconciledRow (db.positions.find t)
      ((KeyedTable.ofList remote : KeyedTable KalshiPosition.ticker).find t) := by
  unfold reconcileInner at h
  dsimp only at h
  obtain ⟨rs, hrs⟩ : ∃ rs : KeyedTable KalshiPosition.ticker, rs = .ofList remote := ⟨_, rfl⟩
  rw [← hrs] at h ⊢
  cases hm : mirrorRemote db.positions rs.rows with
  | error e => simp [hm] at h
  | ok mirrored =>
    simp only [hm, Except.ok.injEq, Prod.mk.injEq] at h
    rw [← h.1]
    dsimp only
    -- both batches hold at most one row for a ticker, the one computed from its old row
    have hmirror : mirrored.map Prod.fst = rs.rows.filterMap
        (fun rpos => (mirroredRow (db.positions.find rpos.ticker) rpos).map Prod.fst) := by
      rw [mirrorRemote_ok hm, List.map_filterMap]
    have hmkey : ∀ (rpos : KalshiPosition) (p : Position),
        (mirroredRow (db.positions.find rpos.ticker) rpos).map Prod.fst = some p →
          p.marketTicker = rpos.ticker := by
      intro rpos p hp
      obtain ⟨⟨q, d⟩, hq, rfl⟩ := Option.map_eq_some_iff.mp hp
      exact mirroredRow_ticker (fun l hl => KeyedTable.find_key hl) hq
    have hclose : ∀ (l p : Position), (closeAbsent rs l).map Prod.fst = some p →
        p.marketTicker = l.marketTicker := by
      intro l p hp
      unfold closeAbsent at hp
      split_ifs at hp
      · cases hp
        rfl
      · simp at hp
    rw [List.map_filterMap,
      KeyedTable.find_putAll _ (KeyedTable.nodup_filterMap hclose db.positions.nodup),
      hmirror, KeyedTable.find_putAll _ (KeyedTable.nodup_filterMap hmkey rs.nodup),
      KeyedTable.find?_filterMap hclose db.positions.nodup, KeyedTable.find?_filterMap hmkey rs.nodup]
    change ((db.positions.find t).bind _).or (((rs.find t).bind _).or (db.positions.find t)) = _
    cases hr : rs.find t with
    | none =>
      cases hl : db.positions.find t with
      | none => rfl
      | some l =>
        obtain rfl := KeyedTable.find_key hl
        by_cases hc : l.count = 0
        · have hsame : { l with count := 0 } = l := by rw [← hc]
          simp [closeAbsent, reconciledRow, hc, hsame]
        · simp [closeAbsent, reconciledRow, hr, hc]
    | some rpos =>
      have hrt := KeyedTable.find_key hr
      have hnone : (db.positions.find t).bind (fun l => (closeAbsent rs l).map Prod.fst) = none := by
        cases hl : db.positions.find t with
        | none => rfl
        | some l => simp [closeAbsent, KeyedTable.find_key hl, hr]
      rw [hnone]
      simp [reconciledRow, hrt]

theorem reconcile_result {source : String} {db db' : Db} {remote : List KalshiPosition}
    {result : ReconcileResult} (h : reconcileInner source db (.ok remote) = .ok (db', result)) :
    ∃ ds, result = .ok ds := by
  unfold reconcileInner at h
  dsimp only at h
  split at h
  · cases h
  · cases h
    exact ⟨_, rfl⟩

theorem reconcile_frame {source : String} {db db' : Db} {remote : List KalshiPosition}
    {ds : List Discrepancy} (h : reconcileInner source db (.ok remote) = .ok (db', .ok ds)) :
    db'.fills = db.fills ∧ db'.orders = db.orders ∧ db'.decisions = db.decisions ∧
      db'.pnlDaily = db.pnlDaily := by
  unfold reconcileInner at h
  dsimp only at h
  split at h
  · cases h
  · cases h
    exact ⟨rfl, rfl, rfl, rfl⟩

theorem remoteHolding_signed (position : ℤ) :
    (remoteHolding position).1.sign * (remoteHolding position).2 = position := by
  unfold remoteHolding
  split_ifs with hzero hpos
  · simp [hzero]
  · simp [Side.sign, abs_of_pos hpos]
  · simp only [Side.sign, abs_of_neg (show position < 0 by omega)]
    omega

theorem remoteHolding_count (position : ℤ) : (remoteHolding position).2 = |position| := by
  unfold remoteHolding
  split_ifs with hzero <;> simp [hzero]

theorem reconciledRow_some (lpos : Option Position) (rpos : KalshiPosition) :
    ∃ p, reconciledRow lpos (some rpos) = some p ∧ p.signed = rpos.position ∧
      p.count = |rpos.position| ∧
      p.avgPriceDollars = (lpos.map Position.avgPriceDollars).getD .zero := by
  have hsigned := remoteHolding_signed rpos.position
  have hcount := remoteHolding_count rpos.position
  cases lpos with
  | none => exact ⟨_, rfl, hsigned, hcount, rfl⟩
  | some l =>
    by_cases hdiff : l.count ≠ (remoteHolding rpos.position).2 ∨
        l.side ≠ (remoteHolding rpos.position).1
    · refine ⟨_, by simp [reconciledRow, mirroredRow, mirrorRow, hdiff]; rfl, ?_⟩
      exact ⟨hsigned, hcount, rfl⟩
    · refine ⟨l, by simp [reconciledRow, mirroredRow, mirrorRow, hdiff], ?_⟩
      rw [not_or, not_not, not_not] at hdiff
      rw [Position.signed, hdiff.1, hdiff.2]
      exact ⟨hsigned, hcount, rfl⟩

def remoteSigned (remote : List KalshiPosition) (t : Ticker) : ℤ :=
  (((KeyedTable.ofList remote : KeyedTable KalshiPosition.ticker).find t).map
    KalshiPosition.position).getD 0

/-- A successful reconciliation refines the overwriting of signed positions by the server's. -/
theorem reconcile_signed {source : String} {db db' : Db} {remote : List KalshiPosition}
    {ds : List Discrepancy} (h : reconcileInner source db (.ok remote) = .ok (db', .ok ds))
    (t : Ticker) : db'.signed t = remoteSigned remote t := by
  rw [Db.signed, reconcile_find h, remoteSigned]
  cases (KeyedTable.ofList remote : KeyedTable KalshiPosition.ticker).find t with
  | none => cases db.positions.find t <;> simp [reconciledRow, Position.signed]
  | some rpos =>
    obtain ⟨p, hrow, hsigned, _⟩ := reconciledRow_some (db.positions.find t) rpos
    rw [hrow]
    exact hsigned

theorem reconcile_count_nonneg {source : String} {db db' : Db} {remote : List KalshiPosition}
    {ds : List Discrepancy} (h : reconcileInner source db (.ok remote) = .ok (db', .ok ds)) :
    ∀ p ∈ db'.positions.rows, 0 ≤ p.count := by
  intro p hp
  have hfind := KeyedTable.find_of_mem hp
  rw [reconcile_find h] at hfind
  cases hr : (KeyedTable.ofList remote : KeyedTable KalshiPosition.ticker).find p.marketTicker with
  | none =>
    rw [hr] at hfind
    obtain ⟨l, _, rfl⟩ := Option.map_eq_some_iff.mp hfind
    exact le_rfl
  | some rpos =>
    obtain ⟨q, hrow, _, hcount, _⟩ := reconciledRow_some (db.positions.find p.marketTicker) rpos
    rw [hr, hrow] at hfind
    cases hfind
    exact hcount ▸ abs_nonneg rpos.position

end KalshiAgent

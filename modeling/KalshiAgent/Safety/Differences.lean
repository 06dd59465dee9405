import KalshiAgent.Lib.Execution
import KalshiAgent.Positions.Deliveries
import KalshiAgent.Positions.History
import KalshiAgent.Safety.Reconciliation

/-! What a reconciliation reports. A ticker is reported exactly when its row is written, and the
row that is written is not reported again. The side of a flat position is a label: the server's is
always YES, a local row keeps the one it last had. -/

namespace KalshiAgent
open Execution

def Discrepancy.ticker : Discrepancy → Ticker
  | .missingLocal ticker _ => ticker
  | .mismatch ticker _ _ _ _ => ticker
  | .missingRemote ticker _ _ => ticker

/-- What a reconciliation writes and reports, as the rows and the server's list are. -/
def differences (positions : KeyedTable Position.marketTicker)
    (remote : KeyedTable KalshiPosition.ticker) : List (Position × Discrepancy) :=
  remote.rows.filterMap (fun rpos => mirroredRow (positions.find rpos.ticker) rpos) ++
    positions.rows.filterMap (closeAbsent remote)

def Reported (lpos : Option Position) : Option KalshiPosition → Prop
  | none => ∃ l, lpos = some l ∧ l.count ≠ 0
  | some rpos => mirroredRow lpos rpos ≠ none

theorem mirroredRow_eq_none_iff {lpos : Option Position} {rpos : KalshiPosition} :
    mirroredRow lpos rpos = none ↔
      ∃ l, lpos = some l ∧ l.count = (remoteHolding rpos.position).2 ∧
        l.side = (remoteHolding rpos.position).1 := by
  unfold mirroredRow mirrorRow
  cases lpos with
  | none => simp
  | some l =>
    dsimp only
    by_cases hdiff : l.count ≠ (remoteHolding rpos.position).2 ∨
        l.side ≠ (remoteHolding rpos.position).1
    · rw [if_pos hdiff]
      simp only [reduceCtorEq, Option.some.injEq, false_iff]
      rintro ⟨_, rfl, hcount, hside⟩
      exact hdiff.elim (absurd hcount) (absurd hside)
    · rw [if_neg hdiff]
      rw [not_or, not_not, not_not] at hdiff
      exact iff_of_true rfl ⟨l, rfl, hdiff⟩

theorem mirroredRow_reports {lpos : Option Position} {rpos : KalshiPosition} {p : Position}
    {d : Discrepancy} (h : mirroredRow lpos rpos = some (p, d)) : d.ticker = rpos.ticker := by
  unfold mirroredRow mirrorRow at h
  cases lpos with
  | none =>
    cases h
    rfl
  | some l =>
    dsimp only at h
    split_ifs at h <;> cases h <;> rfl

theorem closeAbsent_eq_some {remote : KeyedTable KalshiPosition.ticker} {l p : Position}
    {d : Discrepancy} (h : closeAbsent remote l = some (p, d)) :
    remote.find l.marketTicker = none ∧ l.count ≠ 0 ∧ d.ticker = l.marketTicker := by
  unfold closeAbsent at h
  split_ifs at h with hclosed
  cases h
  exact ⟨hclosed.1, hclosed.2, rfl⟩

theorem mem_differences_iff {positions : KeyedTable Position.marketTicker}
    {remote : KeyedTable KalshiPosition.ticker} {t : Ticker} :
    t ∈ (differences positions remote).map (fun w => w.2.ticker) ↔
      Reported (positions.find t) (remote.find t) := by
  unfold differences
  rw [List.map_append, List.mem_append, List.mem_map, List.mem_map]
  constructor
  · rintro (⟨⟨p, d⟩, hmem, rfl⟩ | ⟨⟨p, d⟩, hmem, rfl⟩)
    · obtain ⟨rpos, hrpos, hrow⟩ := List.mem_filterMap.mp hmem
      dsimp only
      rw [mirroredRow_reports hrow, KeyedTable.find_of_mem hrpos]
      exact fun hnone => Option.some_ne_none _ (hrow.symm.trans hnone)
    · obtain ⟨l, hl, hrow⟩ := List.mem_filterMap.mp hmem
      obtain ⟨habsent, hcount, hticker⟩ := closeAbsent_eq_some hrow
      dsimp only
      rw [hticker, habsent]
      exact ⟨l, KeyedTable.find_of_mem hl, hcount⟩
  · intro h
    cases hr : remote.find t with
    | none =>
      rw [hr] at h
      obtain ⟨l, hl, hcount⟩ := h
      have hkey := KeyedTable.find_key hl
      refine .inr ⟨({ l with count := 0 }, .missingRemote l.marketTicker l.side l.count),
        List.mem_filterMap.mpr ⟨l, KeyedTable.mem_of_find hl, ?_⟩, hkey⟩
      exact if_pos ⟨hkey.symm ▸ hr, hcount⟩
    | some rpos =>
      rw [hr] at h
      obtain rfl := KeyedTable.find_key hr
      obtain ⟨⟨p, d⟩, hrow⟩ := Option.ne_none_iff_exists'.mp h
      exact .inl ⟨_, List.mem_filterMap.mpr ⟨rpos, KeyedTable.mem_of_find hr, hrow⟩,
        mirroredRow_reports hrow⟩

theorem mirrorRemote_readable {locals : KeyedTable Position.marketTicker}
    (locals' : KeyedTable Position.marketTicker) {remote : List KalshiPosition}
    {written : List (Position × Discrepancy)}
    (h : mirrorRemote locals remote = .ok written) :
    ∃ written', mirrorRemote locals' remote = .ok written' := by
  induction remote generalizing written with
  | nil => exact ⟨[], rfl⟩
  | cons rpos rest ih =>
    rw [mirrorRemote] at h ⊢
    cases hfloat : floatOrZero rpos.realizedPnlDollars with
    | error e => simp [hfloat] at h
    | ok realized =>
      cases hrest : mirrorRemote locals rest with
      | error e => simp [hfloat, hrest] at h
      | ok tail =>
        obtain ⟨tail', htail'⟩ := ih hrest
        rw [htail']
        exact ⟨_, rfl⟩

theorem reconciledRow_holding (lpos : Option Position) (rpos : KalshiPosition) :
    ∃ p, reconciledRow lpos (some rpos) = some p ∧ p.count = (remoteHolding rpos.position).2 ∧
      p.side = (remoteHolding rpos.position).1 := by
  rw [reconciledRow]
  cases hrow : mirroredRow lpos rpos with
  | none =>
    obtain ⟨l, rfl, hcount, hside⟩ := mirroredRow_eq_none_iff.mp hrow
    exact ⟨l, rfl, hcount, hside⟩
  | some w =>
    refine ⟨w.1, rfl, ?_⟩
    unfold mirroredRow mirrorRow at hrow
    cases lpos with
    | none =>
      cases hrow
      exact ⟨rfl, rfl⟩
    | some l =>
      dsimp only at hrow
      split_ifs at hrow <;> cases hrow <;> exact ⟨rfl, rfl⟩

theorem reconciledRow_ne_iff (lpos : Option Position) (rpos : Option KalshiPosition) :
    reconciledRow lpos rpos ≠ lpos ↔ Reported lpos rpos := by
  cases rpos with
  | none =>
    cases lpos with
    | none => exact iff_of_false (not_not_intro rfl) (fun ⟨_, hl, _⟩ => nomatch hl)
    | some l =>
      constructor
      · intro hne
        refine ⟨l, rfl, fun hcount => hne ?_⟩
        change some { l with count := 0 } = some l
        rw [← hcount]
      · rintro ⟨_, hl, hcount⟩ heq
        cases hl
        exact hcount (congrArg Position.count (Option.some.inj heq)).symm
  | some rpos =>
    constructor
    · intro hne hnone
      refine hne ?_
      rw [reconciledRow, hnone]
      rfl
    · intro hreported heq
      obtain ⟨p, hp, hcount, hside⟩ := reconciledRow_holding lpos rpos
      exact hreported (mirroredRow_eq_none_iff.mpr ⟨p, heq.symm.trans hp, hcount, hside⟩)

theorem not_reported_after (lpos : Option Position) (rpos : Option KalshiPosition) :
    ¬ Reported (reconciledRow lpos rpos) rpos := by
  cases rpos with
  | none =>
    rintro ⟨l, hl, hcount⟩
    obtain ⟨_, _, rfl⟩ := Option.map_eq_some_iff.mp hl
    exact hcount rfl
  | some rpos =>
    obtain ⟨p, hp, hcount, hside⟩ := reconciledRow_holding lpos rpos
    rw [hp]
    exact not_not_intro (mirroredRow_eq_none_iff.mpr ⟨p, rfl, hcount, hside⟩)

section Reconcile
variable {source : String} {db db' : Db} {remote : List KalshiPosition} {ds : List Discrepancy}

theorem reconcile_reports (h : reconcileInner source db (.ok remote) = .ok (db', .ok ds)) :
    ds = (differences db.positions (.ofList remote)).map Prod.snd := by
  unfold reconcileInner at h
  dsimp only at h
  cases hm : mirrorRemote db.positions
      (KeyedTable.ofList remote : KeyedTable KalshiPosition.ticker).rows with
  | error e => simp [hm] at h
  | ok mirrored =>
    simp only [hm, Except.ok.injEq, Prod.mk.injEq, ReconcileResult.ok.injEq] at h
    rw [← h.2, mirrorRemote_ok hm]
    rfl

theorem reconcile_listed_iff (h : reconcileInner source db (.ok remote) = .ok (db', .ok ds))
    (t : Ticker) : t ∈ ds.map Discrepancy.ticker ↔
      Reported (db.positions.find t)
        ((KeyedTable.ofList remote : KeyedTable KalshiPosition.ticker).find t) := by
  rw [reconcile_reports h, List.map_map, ← mem_differences_iff]
  rfl

theorem reconcile_changes_iff (h : reconcileInner source db (.ok remote) = .ok (db', .ok ds))
    (t : Ticker) : db'.positions.find t ≠ db.positions.find t ↔ t ∈ ds.map Discrepancy.ticker := by
  rw [reconcile_find h, reconcile_listed_iff h]
  exact reconciledRow_ne_iff _ _

/-- A list that was read once is read again, whatever the rows are by then. -/
theorem reconcile_again (h : reconcileInner source db (.ok remote) = .ok (db', .ok ds))
    (source' : String) (db₁ : Db) :
    ∃ db₂ ds', reconcileInner source' db₁ (.ok remote) = .ok (db₂, .ok ds') ∧
      (ds' = [] → db₂.positions = db₁.positions) := by
  unfold reconcileInner at h ⊢
  dsimp only at h ⊢
  cases hm : mirrorRemote db.positions
      (KeyedTable.ofList remote : KeyedTable KalshiPosition.ticker).rows with
  | error e => simp [hm] at h
  | ok mirrored =>
    obtain ⟨mirrored', hm'⟩ := mirrorRemote_readable db₁.positions hm
    rw [hm']
    refine ⟨_, _, rfl, fun hnil => ?_⟩
    obtain ⟨hmirrored, hclosed⟩ := List.append_eq_nil_iff.mp (List.map_eq_nil_iff.mp hnil)
    dsimp only
    rw [hmirrored, hclosed]
    rfl

end Reconcile

theorem remoteSigned_of_mem {remote : List KalshiPosition} {rpos : KalshiPosition}
    (hdistinct : (remote.map KalshiPosition.ticker).Nodup) (hmem : rpos ∈ remote) :
    remoteSigned remote rpos.ticker = rpos.position := by
  rw [remoteSigned, KeyedTable.find_ofList_of_mem hdistinct hmem]
  rfl

theorem remoteSigned_of_not_mem {remote : List KalshiPosition} {t : Ticker}
    (hdistinct : (remote.map KalshiPosition.ticker).Nodup)
    (hmem : t ∉ remote.map KalshiPosition.ticker) : remoteSigned remote t = 0 := by
  have hnone : remote.find? (fun rpos => rpos.ticker = t) = none := by
    rw [List.find?_eq_none]
    intro rpos hrpos hticker
    exact hmem (List.mem_map.mpr ⟨rpos, hrpos, of_decide_eq_true hticker⟩)
  rw [remoteSigned, KeyedTable.find_ofList hdistinct, hnone]
  rfl

/-- A reconciliation mirrors the server's list, and is idempotent. -/
theorem reconcile_mirrors_twice {source : String} (source' : String) {db db' : Db}
    {remote : List KalshiPosition} {ds : List Discrepancy}
    (hdistinct : (remote.map KalshiPosition.ticker).Nodup)
    (h : reconcileInner source db (.ok remote) = .ok (db', .ok ds)) :
    (∀ rpos ∈ remote, db'.signed rpos.ticker = rpos.position) ∧
      (∀ t ∉ remote.map KalshiPosition.ticker, db'.signed t = 0) ∧
      (∀ row ∈ db.positions.rows, ∃ row', db'.positions.find row.marketTicker = some row' ∧
        row'.avgPriceDollars = row.avgPriceDollars) ∧
      ∃ db'', reconcileInner source' db' (.ok remote) = .ok (db'', .ok []) ∧
        db''.positions = db'.positions := by
  refine ⟨fun rpos hrpos => ?_, fun t ht => ?_, fun row hrow => ?_, ?_⟩
  · rw [reconcile_signed h, remoteSigned_of_mem hdistinct hrpos]
  · rw [reconcile_signed h, remoteSigned_of_not_mem hdistinct ht]
  · rw [reconcile_find h, KeyedTable.find_of_mem hrow]
    cases (KeyedTable.ofList remote : KeyedTable KalshiPosition.ticker).find row.marketTicker with
    | none => exact ⟨_, rfl, rfl⟩
    | some rpos =>
      obtain ⟨p, hp, _, _, havg⟩ := reconciledRow_some (some row) rpos
      exact ⟨p, hp, havg⟩
  · obtain ⟨db₂, ds', hagain, hsame⟩ := reconcile_again h source' db'
    have hnone : ds' = [] := by
      apply List.eq_nil_iff_forall_not_mem.mpr
      intro d hd
      have hlisted := (reconcile_listed_iff hagain d.ticker).mp (List.mem_map.mpr ⟨d, hd, rfl⟩)
      rw [reconcile_find h] at hlisted
      exact not_reported_after _ _ hlisted
    subst hnone
    exact ⟨db₂, hagain, hsame rfl⟩

def flatRemote (realized : ℚ) : KalshiPosition := ⟨"FOO", 0, some (.decimal realized)⟩

theorem reconcile_mirrors_twice_threeTickers :
    let db : Db := { Db.empty with
      positions := .ofList [⟨"BAR", .no, 0, .zero, 3⟩, ⟨"BAZ", .no, 4, ⟨2500⟩, 0⟩] }
    let remote : List KalshiPosition := [⟨"BAR", 0, none⟩, ⟨"FOO", -7, none⟩]
    ∃ db' ds, reconcileInner "startup" db (.ok remote) = .ok (db', .ok ds) ∧
      ds.length = 3 ∧ db'.signed "FOO" = -7 ∧ db'.signed "BAZ" = 0 ∧
      ∃ db'', reconcileInner "scheduled" db' (.ok remote) = .ok (db'', .ok []) ∧
        db''.positions = db'.positions := by
  intro db remote
  obtain ⟨hremote, habsent, _, hagain⟩ := @reconcile_mirrors_twice "startup" "scheduled"
    db _ remote _ (by decide) rfl
  refine ⟨_, _, rfl, by decide, hremote _ (List.mem_cons_of_mem _ List.mem_cons_self),
    habsent "BAZ" (by decide), hagain⟩

/-- A ticker is listed, and its row written, exactly when its local signed position is not the
remote one. -/
def ReportsDifferences (source : String) (db : Db) (remote : List KalshiPosition) : Prop :=
  ∀ db' ds, reconcileInner source db (.ok remote) = .ok (db', .ok ds) → ∀ t,
    (t ∈ ds.map Discrepancy.ticker ↔ db.signed t ≠ remoteSigned remote t) ∧
      (db'.positions.find t ≠ db.positions.find t ↔ db.signed t ≠ remoteSigned remote t)

/-- The condition: a listed ticker of which the server holds what the row holds has a row, under
the server's side and with its number of contracts. For a flat one that is the side YES. -/
def LabelledAlike (db : Db) (remote : List KalshiPosition) : Prop :=
  ∀ rpos ∈ (KeyedTable.ofList remote : KeyedTable KalshiPosition.ticker).rows,
    db.signed rpos.ticker = rpos.position →
      ∃ l, db.positions.find rpos.ticker = some l ∧
        l.count = (remoteHolding rpos.position).2 ∧ l.side = (remoteHolding rpos.position).1

theorem signed_of_not_reported {lpos : Option Position} {rpos : KalshiPosition}
    (h : ¬ Reported lpos (some rpos)) : (lpos.map Position.signed).getD 0 = rpos.position := by
  obtain ⟨l, rfl, hcount, hside⟩ := mirroredRow_eq_none_iff.mp (not_not.mp h)
  change l.signed = _
  rw [Position.signed, hcount, hside, remoteHolding_signed]

theorem reported_none_iff (lpos : Option Position) :
    Reported lpos none ↔ (lpos.map Position.signed).getD 0 ≠ 0 := by
  cases lpos with
  | none => exact iff_of_false (fun ⟨_, hl, _⟩ => nomatch hl) (not_not_intro rfl)
  | some l =>
    change _ ↔ l.signed ≠ 0
    rw [ne_eq, signed_eq_zero_iff]
    constructor
    · rintro ⟨_, hl, hcount⟩
      cases hl
      exact hcount
    · exact fun hcount => ⟨l, rfl, hcount⟩

theorem reportsDifferences_iff {source : String} {db db' : Db} {remote : List KalshiPosition}
    {ds : List Discrepancy} (h : reconcileInner source db (.ok remote) = .ok (db', .ok ds)) :
    ReportsDifferences source db remote ↔ LabelledAlike db remote := by
  have hlisted : ReportsDifferences source db remote ↔
      ∀ t, t ∈ ds.map Discrepancy.ticker ↔ db.signed t ≠ remoteSigned remote t := by
    constructor
    · exact fun hreports t => (hreports db' ds h t).1
    · intro hall db₁ ds₁ h₁ t
      cases h.symm.trans h₁
      exact ⟨hall t, (reconcile_changes_iff h t).trans (hall t)⟩
  rw [hlisted]
  constructor
  · intro hall rpos hrpos hsigned
    have hfind := KeyedTable.find_of_mem hrpos
    have hremote : remoteSigned remote rpos.ticker = rpos.position := by
      rw [remoteSigned, hfind]
      rfl
    have hnot := (hall rpos.ticker).not.mpr (not_not_intro (hsigned.trans hremote.symm))
    rw [reconcile_listed_iff h, hfind] at hnot
    exact mirroredRow_eq_none_iff.mp (not_not.mp hnot)
  · intro halike t
    rw [reconcile_listed_iff h, Db.signed, remoteSigned]
    cases hr : (KeyedTable.ofList remote : KeyedTable KalshiPosition.ticker).find t with
    | none => exact reported_none_iff _
    | some rpos =>
      obtain rfl := KeyedTable.find_key hr
      constructor
      · intro hreported hsame
        exact hreported (mirroredRow_eq_none_iff.mpr (halike rpos (KeyedTable.mem_of_find hr) hsame))
      · intro hdiffer
        by_contra hnot
        exact hdiffer (signed_of_not_reported hnot)

inductive TableStep
  | fill (a : Arrival)
  | reconcile (source : String) (remote : List KalshiPosition)

def tableStep (rate : ℚ) (db : Db) : TableStep → Option Db
  | .fill a => some (deliver rate db a)
  | .reconcile source remote =>
    match reconcileInner source db (.ok remote) with
    | .ok (db', .ok _) => some db'
    | _ => none

def StepReports (db : Db) : TableStep → Prop
  | .fill _ => True
  | .reconcile source remote => ReportsDifferences source db remote

def StepAlike (db : Db) : TableStep → Prop
  | .fill _ => True
  | .reconcile _ remote => LabelledAlike db remote

theorem stepReports_iff {rate : ℚ} {db db' : Db} {step : TableStep}
    (h : tableStep rate db step = some db') : StepReports db step ↔ StepAlike db step := by
  cases step with
  | fill a => exact Iff.rfl
  | reconcile source remote =>
    simp only [tableStep] at h
    split at h
    · next heq => exact reportsDifferences_iff heq
    · cases h

/-- The reconciliations of a run report and write real differences alone, exactly when each of them
finds equal positions labelled alike. -/
theorem reports_differences_iff (rate : ℚ) (db : Db) (steps : List TableStep) :
    AllSteps (tableStep rate) StepReports db steps ↔
      AllSteps (tableStep rate) StepAlike db steps :=
  allSteps_congr (I := fun _ => True) (fun _ _ _ _ _ => trivial) (fun _ _ _ _ h => stepReports_iff h)
    trivial

def pairedOff : List TableStep :=
  [.fill ⟨{ sweepFill "t1" (some 1000) with
      side := .no, noPriceDollars := some (.decimal (1 / 2)) }, 0, 0, 0⟩,
    .fill ⟨{ sweepFill "t2" (some 2000) with
      orderId := "o2", yesPriceDollars := some (.decimal (1 / 4)) }, 0, 0, 0⟩]

def flatReconciled (db : Db) : Option (ℤ × List Ticker × Option ℚ × Option ℚ) :=
  match reconcileInner "scheduled" db (.ok [flatRemote 0]) with
  | .ok (db', .ok ds) => some (db.signed "FOO", ds.map Discrepancy.ticker,
      (db.positions.find "FOO").map Position.realizedPnlDollars,
      (db'.positions.find "FOO").map Position.realizedPnlDollars)
  | _ => none

/-- Against a flat remote position the row is reported, and its realized PnL overwritten. -/
theorem not_reports_differences_flat :
    (exec (tableStep (7 / 100)) .empty pairedOff).bind flatReconciled =
        some (0, ["FOO"], some (21 / 10), some 0) ∧
      ¬ AllSteps (tableStep (7 / 100)) StepReports .empty
        (pairedOff ++ [.reconcile "scheduled" [flatRemote 0]]) := by
  have hrun : (exec (tableStep (7 / 100)) .empty pairedOff).bind flatReconciled =
      some (0, ["FOO"], some (21 / 10), some 0) := by decide +kernel
  refine ⟨hrun, fun h => ?_⟩
  obtain ⟨t, ht, hview⟩ := Option.bind_eq_some_iff.mp hrun
  have hremote : remoteSigned [flatRemote 0] "FOO" = 0 := rfl
  cases hrec : reconcileInner "scheduled" t (.ok [flatRemote 0]) with
  | error e => simp [flatReconciled, hrec] at hview
  | ok r =>
    obtain ⟨db', result⟩ := r
    obtain ⟨ds, rfl⟩ := reconcile_result hrec
    have hstep : tableStep (7 / 100) t (.reconcile "scheduled" [flatRemote 0]) = some db' := by
      simp only [tableStep, hrec]
    have hreports : ReportsDifferences "scheduled" t [flatRemote 0] := h.last ht hstep
    simp only [flatReconciled, hrec, Option.some.injEq, Prod.mk.injEq] at hview
    obtain ⟨hsigned, hlisted, _⟩ := hview
    have hfoo : "FOO" ∈ ds.map Discrepancy.ticker := hlisted ▸ List.mem_singleton.mpr rfl
    exact ((hreports db' ds hrec "FOO").1.mp hfoo) (hsigned.trans hremote.symm)

end KalshiAgent

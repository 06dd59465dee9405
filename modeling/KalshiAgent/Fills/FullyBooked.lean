import KalshiAgent.Execution.FilledStatus
import KalshiAgent.Fills.PartialPoll

/-! What a newly stored fill gets besides its row. The ingestor takes a fill that realizes nothing
for a duplicate, so the count it returns, the event, the mark and the status of the order leave out
a new fill whose gross profit is its fee. -/

namespace KalshiAgent

def Position.nets (rate : ℚ) (pos : Position) (fill : KalshiFill) : ℚ :=
  match pos.trade fill fill.price with
  | .ok (_, gross) => gross - totalFeeDollars fill.count fill.price fill.isTaker rate
  | .error _ => 0

def Arrival.stored (rate : ℚ) (a : Arrival) : Fill :=
  a.row a.fill.price (totalFeeDollars a.fill.count a.fill.price a.fill.isTaker rate)

def newFills (rate : ℚ) (db : Db) : List Arrival → List (Arrival × Position)
  | [] => []
  | a :: as =>
    match applyFill rate db a with
    | .error _ => []
    | .ok (db', _) =>
      if db.hasFill a.lookupIdentity then newFills rate db' as
      else (a, db.positionFor a.fill) :: newFills rate db' as

def nettingFills (rate : ℚ) (fills : List (Arrival × Position)) : List (Arrival × Position) :=
  fills.filter (fun p => p.2.nets rate p.1.fill ≠ 0)

theorem applyFill_new {rate δ : ℚ} {db db' : Db} {a : Arrival}
    (h : applyFill rate db a = .ok (db', δ)) (hnew : db.hasFill a.lookupIdentity = false) :
    δ = (db.positionFor a.fill).nets rate a.fill ∧ db'.fills = db.fills ++ [a.stored rate] ∧
      db'.events = db.events ∧ db'.orders = db.orders := by
  rcases applyFill_cases h with ⟨hdup, _⟩ | ⟨_, price, moved, gross, hprice, htrade, rfl, rfl⟩
  · exact absurd (hdup.symm.trans hnew) Bool.noConfusion
  · have hread : a.fill.price = price := by rw [KalshiFill.price, hprice]
    refine ⟨?_, ?_, rfl, rfl⟩
    · rw [Position.nets, hread, htrade]
    · rw [Arrival.stored, hread]
      rfl

theorem newFills_congr {rate : ℚ} {db₁ db₂ : Db} (hbooked : db₁.booked = db₂.booked)
    (as : List Arrival) : newFills rate db₁ as = newFills rate db₂ as := by
  induction as generalizing db₁ db₂ with
  | nil => rfl
  | cons a as ih =>
    have hpos : db₁.positionFor a.fill = db₂.positionFor a.fill := by
      rw [Db.positionFor, (Prod.mk.inj hbooked).2, Db.positionFor]
    unfold newFills
    cases happ₁ : applyFill rate db₁ a with
    | error e =>
      cases happ₂ : applyFill rate db₂ a with
      | error e => rfl
      | ok r =>
        obtain ⟨_, happ, _⟩ := applyFill_congr hbooked.symm happ₂
        cases happ₁.symm.trans happ
    | ok r =>
      obtain ⟨db₂', happ₂, hbooked'⟩ := applyFill_congr hbooked happ₁
      rw [happ₂, hasFill_of_booked hbooked, hpos]
      dsimp only
      rw [ih hbooked']

section Ingest
variable {env : IngestEnv} {st st' : PollState}

def fillEvents (db : Db) : ℕ := db.events.countP (fun e => e.kind = "fill")

structure Ingested (env : IngestEnv) (st st' : PollState) (new : List (Arrival × Position)) :
    Prop where
  fills : st'.db.fills = st.db.fills ++ new.map (fun p => p.1.stored env.takerRate)
  applied : st'.applied = st.applied + (nettingFills env.takerRate new).length
  events : fillEvents st'.db = fillEvents st.db + (nettingFills env.takerRate new).length
  maxTsSeen : st'.maxTsSeen =
    ((nettingFills env.takerRate new).map (fun p => p.1.second)).foldl max st.maxTsSeen
  orders : st'.db.orders = ((nettingFills env.takerRate new).map (fun p => p.1.fill.orderId)).foldl
    (fun orders orderId => markFilled orderId orders) st.db.orders

theorem nettingFills_append (rate : ℚ) (xs ys : List (Arrival × Position)) :
    nettingFills rate (xs ++ ys) = nettingFills rate xs ++ nettingFills rate ys :=
  List.filter_append ..

theorem Ingested.trans {st₁ st₂ st₃ : PollState} {xs ys : List (Arrival × Position)}
    (h : Ingested env st₁ st₂ xs) (h' : Ingested env st₂ st₃ ys) :
    Ingested env st₁ st₃ (xs ++ ys) := by
  constructor
  · rw [h'.fills, h.fills, List.map_append, List.append_assoc]
  · rw [h'.applied, h.applied, nettingFills_append, List.length_append, Nat.add_assoc]
  · rw [h'.events, h.events, nettingFills_append, List.length_append, Nat.add_assoc]
  · rw [h'.maxTsSeen, h.maxTsSeen, nettingFills_append, List.map_append, List.foldl_append]
  · rw [h'.orders, h.orders, nettingFills_append, List.map_append, List.foldl_append]

theorem newFills_cons {rate δ : ℚ} {db db' : Db} {a : Arrival}
    (h : applyFill rate db a = .ok (db', δ)) (as : List Arrival) :
    newFills rate db (a :: as) =
      (if db.hasFill a.lookupIdentity then [] else [(a, db.positionFor a.fill)]) ++
        newFills rate db' as := by
  rw [newFills, h]
  dsimp only
  split_ifs <;> rfl

theorem ingestFill_ingested {a : Arrival} (h : ingestFill env st a = .ok st') :
    ∃ new, Ingested env st st' new ∧
      ∀ as, newFills env.takerRate st.db (a :: as) = new ++ newFills env.takerRate st'.db as := by
  obtain ⟨db, realized, happ, hwritten⟩ := ingestFill_ok h
  have hnew := fun as => newFills_cons happ as
  have hsame : st'.db.booked = db.booked := by
    rcases hwritten with ⟨_, rfl⟩ | ⟨_, rfl⟩ <;> rfl
  refine ⟨_, ?_, fun as => (hnew as).trans (congrArg _ (newFills_congr hsame.symm as))⟩
  cases hdup : st.db.hasFill a.lookupIdentity with
  | true =>
    have hskip : applyFill env.takerRate st.db a = .ok (st.db, 0) := by rw [applyFill, if_pos hdup]
    cases hskip.symm.trans happ
    obtain ⟨_, rfl⟩ | ⟨hreal, _⟩ := hwritten
    · exact ⟨(List.append_nil _).symm, rfl, rfl, rfl, rfl⟩
    · exact absurd rfl hreal
  | false =>
    obtain ⟨hnets, hfills, hevents, horders⟩ := applyFill_new happ hdup
    rw [if_neg Bool.false_ne_true]
    obtain ⟨hzero, rfl⟩ | ⟨hreal, rfl⟩ := hwritten
    · have hnone : nettingFills env.takerRate [(a, st.db.positionFor a.fill)] = [] := by
        simp [nettingFills, ← hnets, hzero]
      refine ⟨hfills, ?_, ?_, ?_, ?_⟩
      · rw [hnone]
        rfl
      · rw [hnone]
        exact congrArg (List.countP _) hevents
      · rw [hnone]
        rfl
      · rw [hnone]
        exact horders
    · have hone : nettingFills env.takerRate [(a, st.db.positionFor a.fill)] =
          [(a, st.db.positionFor a.fill)] := by
        simp [nettingFills, ← hnets, hreal]
      refine ⟨hfills, ?_, ?_, ?_, ?_⟩
      · rw [hone]
        rfl
      · rw [hone]
        simp [fillEvents, hevents, fillEvent]
      · rw [hone]
        rfl
      · rw [hone, ← horders]
        rfl

theorem ingestPage_ingested {as : List Arrival} (h : ingestPage env st as = .ok st') :
    Ingested env st st' (newFills env.takerRate st.db as) := by
  induction as generalizing st with
  | nil =>
    cases h
    exact ⟨(List.append_nil _).symm, rfl, rfl, rfl, rfl⟩
  | cons a as ih =>
    rw [ingestPage] at h
    cases hfill : ingestFill env st a with
    | error e => simp [hfill] at h
    | ok st₁ =>
      simp only [hfill] at h
      obtain ⟨new, hfirst, hnew⟩ := ingestFill_ingested hfill
      rw [hnew]
      exact hfirst.trans (ih h)

end Ingest

def ListFills.Returns (env : IngestEnv) (st : PollState) : ListFills → Prop
  | .failed (.api _ _) => True
  | .failed _ => False
  | .last fills => ∃ st', ingestPage env st fills = .ok st'
  | .page [] _ => True
  | .page fills rest => ∃ st', ingestPage env st fills = .ok st' ∧ rest.Returns env st'

theorem fetchLoop_returns_iff {env : IngestEnv} {st : PollState} {script : ListFills} :
    (fetchLoop env st script).2 = none ↔ script.Returns env st := by
  induction script generalizing st with
  | failed e => cases e <;> simp [fetchLoop, ListFills.Returns]
  | last fills =>
    rw [fetchLoop, ListFills.Returns]
    cases ingestPage env st fills <;> simp
  | page fills rest ih =>
    cases fills with
    | nil => exact iff_of_true rfl trivial
    | cons a as =>
      rw [fetchLoop, ListFills.Returns]
      · cases ingestPage env st (a :: as) with
        | error e => simp
        | ok st' => simp [ih]
      · exact List.cons_ne_nil a as
      · exact List.cons_ne_nil a as

section Poll
variable (db : Db) (mark : Option ℤ)

def newRows (fetched : Fetched) : List Fill := fetched.db.fills.drop db.fills.length

structure FullyBooked (fetched : Fetched) : Prop where
  returned : ∀ n, fetched.result = .ok n → n = (newRows db fetched).length
  events : fillEvents fetched.db = fillEvents db + (newRows db fetched).length
  marked : ∀ row ∈ newRows db fetched, row.createdAt < fetched.highWaterTs.getD 0 * 1000000
  parents : ∀ row ∈ newRows db fetched, ∀ order ∈ parentOrder db.orders row.kalshiOrderId,
    order.status ∉ ["filled", "cancelled"] →
      parentOrder fetched.db.orders row.kalshiOrderId = some { order with status := "filled" }

def pollFills (env : IngestEnv) (script : ListFills) : List (Arrival × Position) :=
  newFills env.takerRate db (script.committed env ⟨db, 0, mark.getD 0⟩)

/-- The condition: no new fill's gross profit is its fee, and the mark of before, or the end of the
newest second when a new fill is past that mark, is after every new fill. -/
structure BookedInFull (env : IngestEnv) (script : ListFills) : Prop where
  nets : ∀ p ∈ pollFills db mark env script, p.2.nets env.takerRate p.1.fill ≠ 0
  passed : ∀ p ∈ pollFills db mark env script,
    (p.1.stored env.takerRate).createdAt < mark.getD 0 * 1000000 ∨
      (script.Returns env ⟨db, 0, mark.getD 0⟩ ∧ ∃ q ∈ pollFills db mark env script,
        mark.getD 0 < q.1.second ∧
          (p.1.stored env.takerRate).createdAt < (q.1.second + 1) * 1000000)

end Poll

theorem nettingFills_length_iff {rate : ℚ} {new : List (Arrival × Position)} :
    (nettingFills rate new).length = new.length ↔ ∀ p ∈ new, p.2.nets rate p.1.fill ≠ 0 := by
  unfold nettingFills
  rw [List.length_filter_eq_length_iff]
  exact forall₂_congr fun p _ => decide_eq_true_iff

theorem fetchAndApply_ingested (env : IngestEnv) (db : Db) (mark : Option ℤ)
    (listFills : Option ℤ → ListFills) : ∃ st : PollState,
    Ingested env ⟨db, 0, mark.getD 0⟩ st (pollFills db mark env (listFills (requestMinTs mark))) ∧
      (fetchAndApply env db mark listFills).db = st.db ∧
      (∀ n, (fetchAndApply env db mark listFills).result = .ok n → n = st.applied) ∧
      ((listFills (requestMinTs mark)).Returns env ⟨db, 0, mark.getD 0⟩ ∧
          mark.getD 0 < st.maxTsSeen ∧
          (fetchAndApply env db mark listFills).highWaterTs = some (st.maxTsSeen + 1) ∨
        ¬((listFills (requestMinTs mark)).Returns env ⟨db, 0, mark.getD 0⟩ ∧
            mark.getD 0 < st.maxTsSeen) ∧
          (fetchAndApply env db mark listFills).highWaterTs = mark) := by
  have hpage := fetchLoop_committed env ⟨db, 0, mark.getD 0⟩ (listFills (requestMinTs mark))
  have hreturns := @fetchLoop_returns_iff env ⟨db, 0, mark.getD 0⟩ (listFills (requestMinTs mark))
  refine ⟨_, ingestPage_ingested hpage, fetchAndApply_db env db mark listFills, ?_⟩
  unfold fetchAndApply
  dsimp only
  rw [← hreturns]
  cases fetchLoop env ⟨db, 0, mark.getD 0⟩ (listFills (requestMinTs mark)) with
  | mk st error =>
    cases error with
    | some e => exact ⟨nofun, .inr ⟨fun h => absurd h.1 (Option.some_ne_none e), rfl⟩⟩
    | none =>
      refine ⟨fun n h => (Except.ok.inj h).symm, ?_⟩
      by_cases hmoved : mark.getD 0 < st.maxTsSeen
      · exact .inl ⟨rfl, hmoved, if_pos hmoved⟩
      · exact .inr ⟨fun h => hmoved h.2, if_neg hmoved⟩

theorem lt_newMark_iff {returns : Prop} {newest : ℤ} {seconds : List ℤ} {mark newMark : Option ℤ}
    (hnewest : newest = seconds.foldl max (mark.getD 0))
    (h : returns ∧ mark.getD 0 < newest ∧ newMark = some (newest + 1) ∨
      ¬(returns ∧ mark.getD 0 < newest) ∧ newMark = mark) (t : ℤ) :
    t < newMark.getD 0 * 1000000 ↔ t < mark.getD 0 * 1000000 ∨
      (returns ∧ ∃ s ∈ seconds, mark.getD 0 < s ∧ t < (s + 1) * 1000000) := by
  have hreach : ∀ x, x ≤ newest ↔ x ≤ mark.getD 0 ∨ ∃ s ∈ seconds, x ≤ s := by
    intro x
    rw [hnewest]
    exact le_foldl_max
  rcases h with ⟨hreturns, hmoved, rfl⟩ | ⟨hstays, rfl⟩
  · rw [Option.getD_some]
    constructor
    · intro hlt
      rcases (hreach newest).mp le_rfl with hold | ⟨s, hs, hle⟩
      · exact absurd hmoved (not_lt.mpr hold)
      · refine .inr ⟨hreturns, s, hs, hmoved.trans_le hle, ?_⟩
        omega
    · rintro (hold | ⟨_, s, hs, _, hlt⟩)
      · omega
      · have hle : s ≤ newest := (hreach s).mpr (.inr ⟨s, hs, le_rfl⟩)
        omega
  · constructor
    · exact .inl
    · rintro (hold | ⟨hreturns, s, hs, hlow, _⟩)
      · exact hold
      · have hle : s ≤ newest := (hreach s).mpr (.inr ⟨s, hs, le_rfl⟩)
        exact absurd ⟨hreturns, hlow.trans_le hle⟩ hstays

/-- A poll books every newly stored fill in full exactly when each of them nets something and none
of them is after the mark that the poll can leave. -/
theorem fullyBooked_iff (env : IngestEnv) (db : Db) (mark : Option ℤ)
    (listFills : Option ℤ → ListFills) :
    FullyBooked db (fetchAndApply env db mark listFills) ↔
      BookedInFull db mark env (listFills (requestMinTs mark)) := by
  obtain ⟨st, hst, hdb, hresult, hmark⟩ := fetchAndApply_ingested env db mark listFills
  have hrows : newRows db (fetchAndApply env db mark listFills) =
      (pollFills db mark env (listFills (requestMinTs mark))).map
        (fun p => p.1.stored env.takerRate) := by
    rw [newRows, hdb, hst.fills]
    exact List.drop_left
  -- the events tell whether every new fill nets something, and then all of them are booked
  have hevents : (fillEvents (fetchAndApply env db mark listFills).db =
      fillEvents db + (newRows db (fetchAndApply env db mark listFills)).length) ↔
        ∀ p ∈ pollFills db mark env (listFills (requestMinTs mark)),
          p.2.nets env.takerRate p.1.fill ≠ 0 := by
    rw [hdb, hst.events, hrows, List.length_map, Nat.add_left_cancel_iff]
    exact nettingFills_length_iff
  have hall : (∀ p ∈ pollFills db mark env (listFills (requestMinTs mark)),
      p.2.nets env.takerRate p.1.fill ≠ 0) →
        nettingFills env.takerRate (pollFills db mark env (listFills (requestMinTs mark))) =
          pollFills db mark env (listFills (requestMinTs mark)) := fun hnets =>
    List.filter_eq_self.mpr fun p hp => decide_eq_true (hnets p hp)
  have hpassed : (∀ p ∈ pollFills db mark env (listFills (requestMinTs mark)),
      p.2.nets env.takerRate p.1.fill ≠ 0) → ∀ t : Time,
        (t < (fetchAndApply env db mark listFills).highWaterTs.getD 0 * 1000000 ↔
          t < mark.getD 0 * 1000000 ∨
            ((listFills (requestMinTs mark)).Returns env ⟨db, 0, mark.getD 0⟩ ∧
              ∃ q ∈ pollFills db mark env (listFills (requestMinTs mark)),
                mark.getD 0 < q.1.second ∧ t < (q.1.second + 1) * 1000000)) := by
    intro hnets t
    have hnewest := hst.maxTsSeen
    rw [hall hnets] at hnewest
    refine (lt_newMark_iff hnewest hmark t).trans ?_
    simp only [List.mem_map, exists_exists_and_eq_and]
  constructor
  · intro h
    have hnets := hevents.mp h.events
    refine ⟨hnets, fun p hp => (hpassed hnets _).mp (h.marked _ ?_)⟩
    rw [hrows]
    exact List.mem_map_of_mem hp
  · intro h
    refine ⟨fun n hn => ?_, hevents.mpr h.nets, fun row hrow => ?_,
      fun row hrow order hparent hopen => ?_⟩
    · rw [hresult n hn, hst.applied, hrows, hall h.nets, List.length_map]
      exact Nat.zero_add _
    · rw [hrows] at hrow
      obtain ⟨p, hp, rfl⟩ := List.mem_map.mp hrow
      exact (hpassed h.nets _).mpr (h.passed p hp)
    · rw [hrows] at hrow
      obtain ⟨p, hp, rfl⟩ := List.mem_map.mp hrow
      have hid : (p.1.stored env.takerRate).kalshiOrderId ∈
          (nettingFills env.takerRate (pollFills db mark env (listFills (requestMinTs mark)))).map
            (fun p => p.1.fill.orderId) := by
        rw [hall h.nets]
        exact List.mem_map_of_mem hp
      rw [hdb, hst.orders, parentOrder_markAll hid, Option.mem_def.mp hparent, Option.map_some,
        settled, if_neg hopen]

def flatFill : TimedFill := { boughtAt "o2" 100300000 with
  side := .no, yesPriceDollars := none, noPriceDollars := some (.decimal (48 / 100)) }

theorem not_fullyBooked_flat :
    ¬ FullyBooked .empty (fetchAndApply plainEnv .empty none
      (fun _ => .last [(boughtAt "o1" 100200000).arrival, flatFill.arrival])) :=
  fun h => absurd h.events (by decide +kernel)

end KalshiAgent

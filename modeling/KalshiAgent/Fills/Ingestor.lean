import KalshiAgent.Kalshi.Client
import KalshiAgent.Positions.History

/-! The fill ingestor: one poll reads the pages of `list_fills` from the high-water mark on,
books each page in a session of its own, and moves the mark. A poll is a function of the pages
it is answered with, and a poll that returns has booked the fills of all those pages in order. -/

namespace KalshiAgent

structure IngestEnv where
  takerRate : ℚ
  discord : Bool
  -- `timestamp()` of a stored time: the database drops the zone, the host's zone is read in
  naiveTimestamp : Time → Time

inductive IngestError
  | client (error : ClientError)
  | fill (error : FillError)
  deriving DecidableEq

/-- The answers to the successive calls of `list_fills` in one poll, each with the next cursor. -/
inductive ListFills
  | failed (error : ClientError)
  | last (fills : List Arrival)
  | page (fills : List Arrival) (rest : ListFills)

def Arrival.second (a : Arrival) : ℤ := epochSecond (a.fill.createdTime.getD a.nowSeen)

def formatFixed4 (d : ℚ) : String :=
  (if d < 0 then "-" else "") ++ Dollars4.text ⟨(priceDecimalToStr d).units.natAbs⟩

def fillEvent (fill : KalshiFill) (realized : ℚ) : Event where
  kind := "fill"
  level := "info"
  message := fill.ticker ++ " " ++ fill.side.upper ++ " " ++ fill.action.text ++ " " ++
    toString fill.count ++ " realized=" ++ formatFixed4 realized
  payload := .fill fill.ticker fill.side fill.count realized

/-- The price in the Discord message: the first price the fill has, of either side. -/
def postedPrice (fill : KalshiFill) : Except FillError ℚ :=
  match (truthy fill.yesPriceDollars).or (truthy fill.noPriceDollars) with
  | none => .ok 0
  | some raw =>
    match priceStrToDecimal raw with
    | none => .error .invalidOperation
    | some price => .ok price

/-- The first order of an exchange id becomes filled, unless it is settled already. -/
def markFilled (orderId : String) : List Order → List Order
  | [] => []
  | order :: orders =>
    if order.kalshiOrderId = some orderId then
      (if order.status ∈ ["filled", "cancelled"] then order
        else { order with status := "filled" }) :: orders
    else order :: markFilled orderId orders

structure PollState where
  db : Db
  applied : ℕ
  maxTsSeen : ℤ

def ingestFill (env : IngestEnv) (st : PollState) (a : Arrival) : Except FillError PollState :=
  match applyFill env.takerRate st.db a with
  | .error e => .error e
  | .ok (db, realized) =>
    if realized = 0 then .ok { st with db := db }
    else
      match if env.discord then postedPrice a.fill else .ok 0 with
      | .error e => .error e
      | .ok _ =>
        .ok {
          db := { db with
            events := db.events ++ [fillEvent a.fill realized]
            orders := markFilled a.fill.orderId db.orders }
          applied := st.applied + 1
          maxTsSeen := max st.maxTsSeen a.second }

def ingestPage (env : IngestEnv) (st : PollState) : List Arrival → Except FillError PollState
  | [] => .ok st
  | a :: as =>
    match ingestFill env st a with
    | .error e => .error e
    | .ok st' => ingestPage env st' as

def fetchLoop (env : IngestEnv) (st : PollState) : ListFills → PollState × Option IngestError
  -- KalshiAPIError ends the loop, every other exception leaves the poll
  | .failed (.api _ _) => (st, none)
  | .failed e => (st, some (.client e))
  | .last fills =>
    match ingestPage env st fills with
    | .error e => (st, some (.fill e))
    | .ok st' => (st', none)
  | .page [] _ => (st, none)
  | .page fills rest =>
    match ingestPage env st fills with
    | .error e => (st, some (.fill e))
    | .ok st' => fetchLoop env st' rest

structure Fetched where
  db : Db
  highWaterTs : Option ℤ
  result : Except IngestError ℕ

def requestMinTs (highWaterTs : Option ℤ) : Option ℤ :=
  let minTs := highWaterTs.getD 0
  if 0 < minTs then some minTs else none

def fetchAndApply (env : IngestEnv) (db : Db) (highWaterTs : Option ℤ)
    (listFills : Option ℤ → ListFills) : Fetched :=
  let minTs := highWaterTs.getD 0
  match fetchLoop env ⟨db, 0, minTs⟩ (listFills (requestMinTs highWaterTs)) with
  | (st, some e) => ⟨st.db, highWaterTs, .error e⟩
  | (st, none) =>
    ⟨st.db, if minTs < st.maxTsSeen then some (st.maxTsSeen + 1) else highWaterTs, .ok st.applied⟩

def loadHighWater (env : IngestEnv) (db : Db) : ℤ :=
  match db.fills.maxOn? Fill.createdAt with
  | none => 0
  | some latest => epochSecond (env.naiveTimestamp latest.createdAt)

def catchUp (env : IngestEnv) (db : Db) (highWaterTs : Option ℤ)
    (listFills : Option ℤ → ListFills) : Fetched :=
  fetchAndApply env db (some (highWaterTs.getD (loadHighWater env db))) listFills

def ListFills.returned : ListFills → List Arrival
  | .failed _ => []
  | .last fills => fills
  | .page [] _ => []
  | .page fills rest => fills ++ rest.returned

def ListFills.failure : ListFills → Option ClientError
  | .failed e => some e
  | .last _ => none
  | .page [] _ => none
  | .page _ rest => rest.failure

/-- The fills of the pages whose sessions commit: a page that raises is rolled back. -/
def ListFills.committed (env : IngestEnv) (st : PollState) : ListFills → List Arrival
  | .failed _ => []
  | .last fills =>
    match ingestPage env st fills with
    | .error _ => []
    | .ok _ => fills
  | .page [] _ => []
  | .page fills rest =>
    match ingestPage env st fills with
    | .error _ => []
    | .ok st' => fills ++ rest.committed env st'

theorem ingestPage_append {env : IngestEnv} {st : PollState} (as bs : List Arrival) :
    ingestPage env st (as ++ bs) =
      match ingestPage env st as with
      | .error e => .error e
      | .ok st' => ingestPage env st' bs := by
  induction as generalizing st with
  | nil => rfl
  | cons a as ih =>
    rw [List.cons_append, ingestPage, ingestPage]
    cases ingestFill env st a with
    | error e => rfl
    | ok st' => exact ih

theorem fetchLoop_returned {env : IngestEnv} {st st' : PollState} {script : ListFills}
    (h : fetchLoop env st script = (st', none)) : ingestPage env st script.returned = .ok st' := by
  induction script generalizing st with
  | failed e =>
    cases e <;> cases h
    rfl
  | last fills =>
    rw [fetchLoop] at h
    cases hpage : ingestPage env st fills with
    | error e => simp [hpage] at h
    | ok st₁ =>
      rw [hpage] at h
      cases h
      exact hpage
  | page fills rest ih =>
    cases fills with
    | nil =>
      cases h
      rfl
    | cons a as =>
      rw [fetchLoop] at h
      · rw [ListFills.returned, ingestPage_append]
        · cases hpage : ingestPage env st (a :: as) with
          | error e => simp [hpage] at h
          | ok st₁ =>
            rw [hpage] at h
            exact ih h
        · simp
      · simp

/-- Whatever leaves the loop, the committed state is that of the committed pages. -/
theorem fetchLoop_committed (env : IngestEnv) (st : PollState) (script : ListFills) :
    ingestPage env st (script.committed env st) = .ok (fetchLoop env st script).1 := by
  induction script generalizing st with
  | failed e => cases e <;> rfl
  | last fills =>
    rw [ListFills.committed, fetchLoop]
    cases hpage : ingestPage env st fills with
    | error e => rfl
    | ok st' => exact hpage
  | page fills rest ih =>
    cases fills with
    | nil => rfl
    | cons a as =>
      rw [ListFills.committed, fetchLoop]
      · cases hpage : ingestPage env st (a :: as) with
        | error e => rfl
        | ok st' =>
          rw [ingestPage_append, hpage]
          exact ih st'
      · exact List.cons_ne_nil a as
      · exact List.cons_ne_nil a as

theorem mem_returned_of_committed {env : IngestEnv} {st : PollState} {script : ListFills}
    {a : Arrival} (h : a ∈ script.committed env st) : a ∈ script.returned := by
  induction script generalizing st with
  | failed e => exact h
  | last fills =>
    rw [ListFills.committed] at h
    split at h
    · exact absurd h List.not_mem_nil
    · exact h
  | page fills rest ih =>
    cases fills with
    | nil => exact h
    | cons b bs =>
      rw [ListFills.committed] at h
      · rw [ListFills.returned]
        · split at h
          · exact absurd h List.not_mem_nil
          · exact List.mem_append.mpr ((List.mem_append.mp h).imp_right ih)
        · exact List.cons_ne_nil b bs
      · exact List.cons_ne_nil b bs

theorem fetchAndApply_db (env : IngestEnv) (db : Db) (highWaterTs : Option ℤ)
    (listFills : Option ℤ → ListFills) :
    (fetchAndApply env db highWaterTs listFills).db =
      (fetchLoop env ⟨db, 0, highWaterTs.getD 0⟩ (listFills (requestMinTs highWaterTs))).1.db := by
  unfold fetchAndApply
  dsimp only
  cases fetchLoop env ⟨db, 0, highWaterTs.getD 0⟩ (listFills (requestMinTs highWaterTs)) with
  | mk st error => cases error <;> rfl

theorem fetchAndApply_ok {env : IngestEnv} {db : Db} {highWaterTs : Option ℤ}
    {listFills : Option ℤ → ListFills} {n : ℕ}
    (h : (fetchAndApply env db highWaterTs listFills).result = .ok n) :
    ∃ st, ingestPage env ⟨db, 0, highWaterTs.getD 0⟩ (listFills (requestMinTs highWaterTs)).returned =
        .ok st ∧
      (fetchAndApply env db highWaterTs listFills).db = st.db ∧
      (fetchAndApply env db highWaterTs listFills).highWaterTs =
        if highWaterTs.getD 0 < st.maxTsSeen then some (st.maxTsSeen + 1) else highWaterTs := by
  unfold fetchAndApply at h ⊢
  dsimp only at h ⊢
  cases hloop : fetchLoop env ⟨db, 0, highWaterTs.getD 0⟩ (listFills (requestMinTs highWaterTs)) with
  | mk st error =>
    cases error with
    | some e => simp [hloop] at h
    | none => exact ⟨st, fetchLoop_returned hloop, rfl, rfl⟩

end KalshiAgent

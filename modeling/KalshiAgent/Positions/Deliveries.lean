import KalshiAgent.Positions.ApplyFill

/-! Duplicate detection over sequences of deliveries. A delivery is one call of `apply_fill`
in a session that commits when the call returns and rolls back when it raises. -/

namespace KalshiAgent

def deliver (rate : ℚ) (db : Db) (a : Arrival) : Db :=
  match applyFill rate db a with
  | .ok (db', _) => db'
  | .error _ => db

def deliverAll (rate : ℚ) (db : Db) (ds : List Arrival) : Db := ds.foldl (deliver rate) db

def Returns (rate : ℚ) (db : Db) (a : Arrival) : Prop := ∃ r, applyFill rate db a = .ok r

def Db.booked (db : Db) : List Fill × KeyedTable Position.marketTicker := (db.fills, db.positions)

theorem Db.of_booked {db db' : Db} (h : db'.booked = db.booked) :
    ∃ decisions orders events pnlDaily, db' = { db with
      decisions := decisions, orders := orders, events := events, pnlDaily := pnlDaily } := by
  obtain ⟨decisions, orders, fills, positions, events, pnlDaily⟩ := db'
  obtain ⟨hfills, hpositions⟩ := Prod.mk.inj h
  obtain rfl : fills = db.fills := hfills
  obtain rfl : positions = db.positions := hpositions
  exact ⟨decisions, orders, events, pnlDaily, rfl⟩

theorem deliverAll_cons (rate : ℚ) (db : Db) (a : Arrival) (ds : List Arrival) :
    deliverAll rate db (a :: ds) = deliverAll rate (deliver rate db a) ds := rfl

theorem lookupIdentity_eq_stored {a : Arrival} (h : a.fill.createdTime ≠ none) :
    a.lookupIdentity = a.storedIdentity := by
  obtain ⟨t, ht⟩ := Option.ne_none_iff_exists'.mp h
  simp [Arrival.lookupIdentity, Arrival.storedIdentity, KalshiFill.identityAt, ht]

theorem hasFill_deliver {rate : ℚ} {db : Db} {a : Arrival} (htime : a.fill.createdTime ≠ none)
    (i : FillIdentity) :
    (deliver rate db a).hasFill i = true ↔
      db.hasFill i = true ∨ (Returns rate db a ∧ a.lookupIdentity = i) := by
  unfold deliver Returns
  cases happ : applyFill rate db a with
  | error e => simp
  | ok r =>
    obtain ⟨db', δ⟩ := r
    rcases applyFill_cases happ with ⟨hdup, rfl, _⟩ | ⟨_, price, moved, gross, _, _, _, rfl⟩
    · constructor
      · exact .inl
      · rintro (h | ⟨_, rfl⟩)
        · exact h
        · exact hdup
    · rw [lookupIdentity_eq_stored htime, Db.hasFill_recordFill, Arrival.row_identity]
      exact or_congr_right ⟨fun hi => ⟨⟨_, rfl⟩, hi⟩, fun h => h.2⟩

/-- What is stored after a sequence: what was stored before it, and the identity of each
delivery of the sequence on which the call returned. -/
theorem hasFill_deliverAll {rate : ℚ} {ds : List Arrival} (htime : ∀ a ∈ ds, a.fill.createdTime ≠ none)
    (db : Db) (i : FillIdentity) :
    (deliverAll rate db ds).hasFill i = true ↔
      db.hasFill i = true ∨ ∃ pre b post, ds = pre ++ b :: post ∧
        Returns rate (deliverAll rate db pre) b ∧ b.lookupIdentity = i := by
  induction ds generalizing db with
  | nil => simp [deliverAll]
  | cons a ds ih =>
    rw [deliverAll_cons, ih (fun b hb => htime b (List.mem_cons_of_mem _ hb)),
      hasFill_deliver (htime a List.mem_cons_self)]
    constructor
    · rintro ((h | ⟨hret, hi⟩) | ⟨pre, b, post, rfl, hret, hi⟩)
      · exact .inl h
      · exact .inr ⟨[], a, ds, rfl, hret, hi⟩
      · exact .inr ⟨a :: pre, b, post, rfl, hret, hi⟩
    · rintro (h | ⟨pre, b, post, hsplit, hret, hi⟩)
      · exact .inl (.inl h)
      · cases pre with
        | nil =>
          obtain ⟨rfl, rfl⟩ := List.cons.inj hsplit
          exact .inl (.inr ⟨hret, hi⟩)
        | cons p pre =>
          obtain ⟨rfl, rfl⟩ := List.cons.inj hsplit
          exact .inr ⟨pre, b, post, rfl, hret, hi⟩

theorem booked_deliver_ne_iff (rate : ℚ) (db : Db) (a : Arrival) :
    (deliver rate db a).booked ≠ db.booked ↔
      Returns rate db a ∧ db.hasFill a.lookupIdentity = false := by
  unfold deliver Returns
  cases happ : applyFill rate db a with
  | error e => simp
  | ok r =>
    obtain ⟨db', δ⟩ := r
    rcases applyFill_cases happ with ⟨hdup, rfl, _⟩ | ⟨hnew, price, moved, gross, _, _, _, rfl⟩
    · simp [hdup]
    · simp [hnew, Db.booked, Db.recordFill]

/-- The program detects duplicates by identity tuple: in a sequence of deliveries that carry
`created_time`, the one after `pre` changes the tables exactly when `apply_fill` returns on it
and it returned on no earlier delivery with the same tuple. -/
theorem delivery_changes_iff (rate : ℚ) (pre : List Arrival) (a : Arrival)
    (htime : ∀ b ∈ pre ++ [a], b.fill.createdTime ≠ none) :
    (deliver rate (deliverAll rate .empty pre) a).booked ≠ (deliverAll rate .empty pre).booked ↔
      Returns rate (deliverAll rate .empty pre) a ∧
        ∀ before b after, pre = before ++ b :: after →
          Returns rate (deliverAll rate .empty before) b → b.lookupIdentity ≠ a.lookupIdentity := by
  have hpre : ∀ b ∈ pre, b.fill.createdTime ≠ none := fun b hb => htime b (List.mem_append_left _ hb)
  rw [booked_deliver_ne_iff, ← Bool.not_eq_true, hasFill_deliverAll hpre]
  apply and_congr_right
  intro _
  constructor
  · intro h before b after hsplit hret hi
    exact h (.inr ⟨before, b, after, hsplit, hret, hi⟩)
  · rintro h (hempty | ⟨before, b, after, hsplit, hret, hi⟩)
    · exact absurd hempty (by simp [Db.hasFill, Db.empty])
    · exact h before b after hsplit hret hi

def sweepFill (tradeId : String) (createdTime : Option Time) : KalshiFill where
  tradeId := some tradeId
  orderId := "o1"
  ticker := "FOO"
  side := .yes
  action := .buy
  count := 10
  yesPriceDollars := some (.decimal (1 / 2))
  noPriceDollars := none
  isTaker := true
  createdTime := createdTime

theorem redelivery_changes_nothing :
    (deliver (7 / 100) (deliverAll (7 / 100) .empty [⟨sweepFill "t1" (some 1000), 0, 0, 0⟩])
        ⟨sweepFill "t1" (some 1000), 1, 1, 1⟩).booked =
      (deliverAll (7 / 100) .empty [⟨sweepFill "t1" (some 1000), 0, 0, 0⟩]).booked := by
  by_contra hne
  have h := (delivery_changes_iff (7 / 100) [⟨sweepFill "t1" (some 1000), 0, 0, 0⟩]
    ⟨sweepFill "t1" (some 1000), 1, 1, 1⟩ (by decide)).mp hne
  exact h.2 [] _ [] rfl ⟨_, rfl⟩ (by decide)

/-- Detection by trade id, as a property of one sequence of deliveries. -/
def DetectsByTradeId (rate : ℚ) (ds : List Arrival) : Prop :=
  ∀ n : Fin ds.length,
    (deliverAll rate .empty (ds.take (n + 1))).booked ≠ (deliverAll rate .empty (ds.take n)).booked ↔
      ∀ m : Fin ds.length, m < n → (ds.get m).fill.tradeId ≠ (ds.get n).fill.tradeId

instance (rate : ℚ) (ds : List Arrival) : Decidable (DetectsByTradeId rate ds) :=
  inferInstanceAs (Decidable (∀ _ : Fin ds.length, _))

/-- Two trades of one order, size and instant count as one; one trade without a time counts
as often as it is delivered. -/
theorem not_detectsByTradeId :
    ¬ DetectsByTradeId (7 / 100)
        [⟨sweepFill "t1" (some 1000), 0, 0, 0⟩, ⟨sweepFill "t2" (some 1000), 0, 0, 0⟩] ∧
      ¬ DetectsByTradeId (7 / 100)
        [⟨sweepFill "t1" none, 1000, 1001, 1002⟩, ⟨sweepFill "t1" none, 2000, 2001, 2002⟩] := by
  decide +kernel

end KalshiAgent

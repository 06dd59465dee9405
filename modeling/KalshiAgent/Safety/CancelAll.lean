import KalshiAgent.Recovery
import KalshiAgent.Safety.HaltActions

/-! What a halt leaves resting. `cancel_all_resting` lists the resting orders and cancels them one
by one, while the exchange goes on; `_on_engaged` marks the local rows whatever came of it. -/

namespace KalshiAgent

inductive ServerMove
  | lands (o : ServerOrder)
  | leaves (orderId : String)

def ServerMove.apply (server : List ServerOrder) : ServerMove → List ServerOrder
  | .lands o => server ++ [o]
  | .leaves orderId =>
    server.map (fun o => if o.orderId = orderId then { o with status := .canceled } else o)

def applyMoves (server : List ServerOrder) (moves : List ServerMove) : List ServerOrder :=
  moves.foldl ServerMove.apply server

/-- One `cancel_order` call: what the exchange does before it, whether the order is taken off and
how the call ends. It may fail after the order is off, and does not succeed before. -/
structure CancelCall where
  before : List ServerMove
  took : Bool
  result : Except ClientError Unit
  took_of_ok : result = .ok () → took = true

def CancelCall.moves (call : CancelCall) (orderId : String) : List ServerMove :=
  call.before ++ if call.took then [.leaves orderId] else []

section
variable (calls : ℕ → CancelCall)

/-- The loop over the listed orders, at its `i`th call and with `n` orders cancelled. -/
def cancelEach : List ServerOrder → (i : ℕ) → (n : ℤ) → List ServerOrder →
    List ServerOrder × Except ClientError ℤ
  | [], _, n, server => (server, .ok n)
  | o :: listed, i, n, server =>
    let server := applyMoves server ((calls i).moves o.orderId)
    match (calls i).result with
    | .ok () => cancelEach listed (i + 1) (n + 1) server
    | .error (.api _ _) => cancelEach listed (i + 1) n server
    | .error e => (server, .error e)

def cancelAllResting (listed : Except ClientError (List ServerOrder)) (server : List ServerOrder) :
    List ServerOrder × Except ClientError ℤ :=
  match listed with
  | .error e => (server, .error e)
  | .ok listed => cancelEach calls listed 0 0 server

end

structure HaltAction where
  listed : Except ClientError (List ServerOrder)
  calls : ℕ → CancelCall
  after : List ServerMove

/-- `_on_engaged`, over the tables as they are when the cancelling is over. -/
def HaltAction.run (action : HaltAction) (db : Db) (reason : Option Halt)
    (server : List ServerOrder) : Db × List ServerOrder :=
  let (server, result) := cancelAllResting action.calls action.listed server
  let n := match result with
    | .ok n => n
    | .error _ => -1
  (onEngaged db reason n, applyMoves server action.after)

/-- No order rests on the exchange whose row is marked between `db` and `db'`. -/
def MarkedAreOff (db db' : Db) (server : List ServerOrder) : Prop :=
  ∀ rows ∈ db.orders.zip db'.orders, rows.1.status ≠ "cancelled_by_halt" →
    rows.2.status = "cancelled_by_halt" →
      ∀ o ∈ server, o.clientOrderId = rows.2.clientOrderId → o.status ≠ .resting

def Order.HaltMarks (row : Order) : Prop := row.status ∈ ["pending", "resting", "open"]

/-- What happens on the exchange while the listed orders are cancelled: a call that fails
otherwise than with a `KalshiAPIError` is the last. -/
def cancelMoves (calls : ℕ → CancelCall) : List ServerOrder → ℕ → List ServerMove
  | [], _ => []
  | o :: listed, i =>
    (calls i).moves o.orderId ++
      match (calls i).result with
      | .ok () => cancelMoves calls listed (i + 1)
      | .error (.api _ _) => cancelMoves calls listed (i + 1)
      | .error _ => []

def HaltAction.moves (action : HaltAction) : List ServerMove :=
  match action.listed with
  | .error _ => action.after
  | .ok listed => cancelMoves action.calls listed 0 ++ action.after

structure TakenOff (clientOrderId : String) (server : List ServerOrder) (moves : List ServerMove) :
    Prop where
  resting : ∀ o ∈ server, o.clientOrderId = clientOrderId → o.status = .resting →
    .leaves o.orderId ∈ moves
  landing : ∀ pre o post, moves = pre ++ .lands o :: post → o.clientOrderId = clientOrderId →
    o.status = .resting → .leaves o.orderId ∈ post

section
variable {id : String}

theorem applyMoves_cons (server : List ServerOrder) (move : ServerMove) (moves : List ServerMove) :
    applyMoves server (move :: moves) = applyMoves (move.apply server) moves := rfl

theorem applyMoves_append (server : List ServerOrder) (moves moves' : List ServerMove) :
    applyMoves server (moves ++ moves') = applyMoves (applyMoves server moves) moves' :=
  List.foldl_append

theorem takenOff_lands {server : List ServerOrder} {o : ServerOrder} {moves : List ServerMove} :
    TakenOff id server (.lands o :: moves) ↔ TakenOff id (server ++ [o]) moves := by
  constructor
  · rintro ⟨hresting, hlanding⟩
    refine ⟨fun o' ho' hid hrests => ?_, fun pre o' post heq => ?_⟩
    · rcases List.mem_append.mp ho' with hold | hnew
      · exact (List.mem_cons.mp (hresting o' hold hid hrests)).resolve_left nofun
      · obtain rfl := List.mem_singleton.mp hnew
        exact hlanding [] o' moves rfl hid hrests
    · exact hlanding (.lands o :: pre) o' post (congrArg _ heq)
  · rintro ⟨hresting, hlanding⟩
    refine ⟨fun o' ho' hid hrests => ?_, fun pre o' post heq => ?_⟩
    · exact List.mem_cons_of_mem _ (hresting o' (List.mem_append_left _ ho') hid hrests)
    · cases pre with
      | nil =>
        cases heq
        exact hresting o (List.mem_append_right _ (List.mem_singleton.mpr rfl))
      | cons move pre =>
        cases heq
        exact hlanding pre o' post rfl

theorem takenOff_leaves {server : List ServerOrder} {orderId : String} {moves : List ServerMove} :
    TakenOff id server (.leaves orderId :: moves) ↔
      TakenOff id ((ServerMove.leaves orderId).apply server) moves := by
  constructor
  · rintro ⟨hresting, hlanding⟩
    refine ⟨fun o' ho' hid hrests => ?_, fun pre o' post heq => ?_⟩
    · obtain ⟨o, ho, hmoved⟩ := List.mem_map.mp ho'
      by_cases hgone : o.orderId = orderId
      · rw [if_pos hgone] at hmoved
        exact absurd (hmoved ▸ hrests) ServerStatus.noConfusion
      · rw [if_neg hgone] at hmoved
        subst hmoved
        refine (List.mem_cons.mp (hresting o ho hid hrests)).resolve_left fun heq => ?_
        exact hgone (ServerMove.leaves.inj heq)
    · exact hlanding (.leaves orderId :: pre) o' post (congrArg _ heq)
  · rintro ⟨hresting, hlanding⟩
    refine ⟨fun o ho hid hrests => ?_, fun pre o post heq => ?_⟩
    · by_cases hgone : o.orderId = orderId
      · exact hgone ▸ List.mem_cons_self
      · have hstays : o ∈ (ServerMove.leaves orderId).apply server :=
          List.mem_map.mpr ⟨o, ho, if_neg hgone⟩
        exact List.mem_cons_of_mem _ (hresting o hstays hid hrests)
    · cases pre with
      | nil => cases heq
      | cons move pre =>
        cases heq
        exact hlanding pre o post rfl

theorem notResting_iff_takenOff (server : List ServerOrder) (moves : List ServerMove) :
    (∀ o ∈ applyMoves server moves, o.clientOrderId = id → o.status ≠ .resting) ↔
      TakenOff id server moves := by
  induction moves generalizing server with
  | nil =>
    constructor
    · intro h
      refine ⟨fun o ho hid hresting => absurd hresting (h o ho hid), fun pre o post heq => ?_⟩
      cases pre <;> cases heq
    · exact fun h o ho hid hresting => absurd (h.resting o ho hid hresting) List.not_mem_nil
  | cons move moves ih =>
    rw [applyMoves_cons, ih]
    cases move with
    | lands o => exact takenOff_lands.symm
    | leaves orderId => exact takenOff_leaves.symm

theorem cancelEach_server (calls : ℕ → CancelCall) (listed : List ServerOrder) (i : ℕ) (n : ℤ)
    (server : List ServerOrder) :
    (cancelEach calls listed i n server).1 = applyMoves server (cancelMoves calls listed i) := by
  induction listed generalizing i n server with
  | nil => rfl
  | cons o listed ih =>
    unfold cancelEach cancelMoves
    dsimp only
    rw [applyMoves_append]
    cases (calls i).result with
    | ok => exact ih _ _ _
    | error e =>
      cases e with
      | api statusCode body => exact ih _ _ _
      | auth message => rfl
      | other message => rfl

theorem HaltAction.run_server (action : HaltAction) (db : Db) (reason : Option Halt)
    (server : List ServerOrder) :
    (action.run db reason server).2 = applyMoves server action.moves := by
  unfold run moves cancelAllResting
  cases action.listed with
  | error e => rfl
  | ok listed =>
    dsimp only
    rw [cancelEach_server, applyMoves_append]

theorem markedAreOff_onEngaged (db : Db) (reason : Option Halt) (n : ℤ) (server : List ServerOrder) :
    MarkedAreOff db (onEngaged db reason n) server ↔ ∀ row ∈ db.orders, row.HaltMarks →
      ∀ o ∈ server, o.clientOrderId = row.clientOrderId → o.status ≠ .resting := by
  have hzip : ∀ f : Order → Order, db.orders.zip (db.orders.map f) =
      db.orders.map (fun row => (row, f row)) := by
    intro f
    have hpairs := List.zip_map' (l := db.orders) (f := id) (g := f)
    rw [List.map_id] at hpairs
    exact hpairs
  unfold MarkedAreOff onEngaged Order.HaltMarks
  rw [hzip]
  constructor
  · intro h row hrow hmarks
    have hpair := h _ (List.mem_map.mpr ⟨row, hrow, rfl⟩)
    rw [if_pos hmarks] at hpair
    refine hpair (fun heq => ?_) rfl
    rw [heq] at hmarks
    exact absurd hmarks (by decide)
  · intro h rows hrows hbefore hafter
    obtain ⟨row, hrow, rfl⟩ := List.mem_map.mp hrows
    by_cases hmarks : row.status ∈ ["pending", "resting", "open"]
    · rw [if_pos hmarks]
      exact h row hrow hmarks
    · rw [if_neg hmarks] at hafter
      exact absurd hafter hbefore

theorem HaltAction.run_db (action : HaltAction) (db : Db) (reason : Option Halt)
    (server : List ServerOrder) : ∃ n, (action.run db reason server).1 = onEngaged db reason n :=
  ⟨_, rfl⟩

/-- A halt leaves none of the orders resting that it marks, exactly when each of them is taken off
the book after it came there: no failure of a call is looked at. -/
theorem markedAreOff_iff (action : HaltAction) (db : Db) (reason : Option Halt)
    (server : List ServerOrder) :
    MarkedAreOff db (action.run db reason server).1 (action.run db reason server).2 ↔
      ∀ row ∈ db.orders, row.HaltMarks → TakenOff row.clientOrderId server action.moves := by
  obtain ⟨n, hn⟩ := action.run_db db reason server
  rw [action.run_server, hn, markedAreOff_onEngaged]
  refine forall₂_congr fun row _ => forall_congr' fun _ => ?_
  exact notResting_iff_takenOff server action.moves

end

def restingRow : Order :=
  ⟨"c1", some "k1", "FOO", .yes, .buy, 5, ⟨5000⟩, "resting", some 1⟩

def listFails : HaltAction :=
  ⟨.error (.api 503 ""), fun _ => ⟨[], true, .ok (), fun _ => rfl⟩, []⟩

theorem not_markedAreOff_listFails :
    ¬ MarkedAreOff { Db.empty with orders := [restingRow] }
      (listFails.run { Db.empty with orders := [restingRow] } none [⟨"k1", "c1", .resting⟩]).1
      (listFails.run { Db.empty with orders := [restingRow] } none [⟨"k1", "c1", .resting⟩]).2 := by
  intro h
  have hmarks : restingRow.HaltMarks := by unfold Order.HaltMarks; decide
  have hoff := (markedAreOff_onEngaged _ _ _ _).mp h restingRow List.mem_cons_self hmarks
  exact hoff ⟨"k1", "c1", .resting⟩ List.mem_cons_self rfl rfl

end KalshiAgent

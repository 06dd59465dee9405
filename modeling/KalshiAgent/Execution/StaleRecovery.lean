import KalshiAgent.Execution.RestartSafe

/-! Recovery against the tasks that run beside it. It takes the pending rows, waits for three
lists, and then writes each row it took without another look at its status; what another task has
written there in between is lost. -/

namespace KalshiAgent
open Execution

def Recovery.taken : Recovery → List InFlight
  | .listing items _ _ => items
  | .committing items _ _ => items
  | _ => []

/-- Recovery writes over no row that another task has moved on. -/
def LeavesNewer (cfg : Config) (s : Restarting) : RestartStep → Prop
  | .commit =>
    match restartStep cfg s .commit with
    | none => True
    | some s' => ∀ row ∈ s.db.orders, row.status ≠ "pending" → row ∈ s'.db.orders
  | _ => True

def writesRow : Except ClientError OrderResponse → Bool
  | .error (.other _) => false
  | _ => true

def Service.ends (s : Service) (step : ServiceStep) :
    Option (String × Except ClientError OrderResponse) :=
  match s.sending, s.phaseAfter step with
  | some id, some (.finished outcome) => some (id, outcome)
  | _, _ => none

def Restarting.Spares (s : Restarting) (step : ServiceStep) : Prop :=
  ∀ call ∈ s.service.ends step, writesRow call.2 = true →
    ∀ item ∈ s.recovery.taken, item.clientOrderId ≠ call.1

/-- The condition on the other tasks: between the scan of a recovery and its write of an order, no
call ends that was sending the order, and no halt marks it. -/
def LeavesTaken (s : Restarting) : RestartStep → Prop
  | .service step => s.Spares step
  | .reply reply clock => s.Spares (.reply reply clock)
  | .halted _ _ => ∀ item ∈ s.recovery.taken, ∀ row ∈ s.db.orders,
    row.clientOrderId ≠ item.clientOrderId
  | _ => True

section Decidable
variable (s : Restarting)

instance (cfg : Config) (step : RestartStep) : Decidable (LeavesNewer cfg s step) := by
  unfold LeavesNewer
  split
  · split <;> infer_instance
  · infer_instance

instance (step : ServiceStep) : Decidable (s.Spares step) := by
  unfold Restarting.Spares
  infer_instance

instance : (step : RestartStep) → Decidable (LeavesTaken s step)
  | .service step => inferInstanceAs (Decidable (s.Spares step))
  | .reply reply clock => inferInstanceAs (Decidable (s.Spares (.reply reply clock)))
  | .halted _ _ => inferInstanceAs (Decidable (∀ item ∈ s.recovery.taken, ∀ row ∈ s.db.orders,
      row.clientOrderId ≠ item.clientOrderId))
  | .transmit _ | .serverMoves _ _ | .ingested _ | .crash _ | .scan | .listed _ | .listFailed _
  | .commit | .finish => isTrue trivial

end Decidable

structure TakenInvariant (s : Restarting) : Prop where
  minted : ∀ row ∈ s.db.orders, row.clientOrderId ∈ s.service.minted
  unique : (s.db.orders.map Order.clientOrderId).Nodup
  unsent : ∀ row ∈ s.db.orders, row.status = "pending" → row.kalshiOrderId = none
  once : (s.recovery.taken.map InFlight.clientOrderId).Nodup
  taken : ∀ item ∈ s.recovery.taken, ∀ row ∈ s.db.orders,
    row.clientOrderId = item.clientOrderId → row.status = "pending"

section Invariant
variable {cfg : Config} {s s' : Restarting}

theorem TakenInvariant.rewrite (hI : TakenInvariant s) {f : Order → Order}
    (horders : s'.db.orders = s.db.orders.map f) (hminted : s'.service.minted = s.service.minted)
    (hrecovery : s'.recovery.taken.Sublist s.recovery.taken)
    (hid : ∀ row, (f row).clientOrderId = row.clientOrderId)
    (hunsent : ∀ row ∈ s.db.orders, (f row).status = "pending" →
      (f row).kalshiOrderId = row.kalshiOrderId ∧ row.status = "pending")
    (htaken : ∀ item ∈ s'.recovery.taken, ∀ row ∈ s.db.orders,
      row.clientOrderId = item.clientOrderId → (f row).status = row.status) : TakenInvariant s' := by
  have hids : s'.db.orders.map Order.clientOrderId = s.db.orders.map Order.clientOrderId := by
    rw [horders, List.map_map]
    exact List.map_congr_left fun row _ => hid row
  refine ⟨?_, hids ▸ hI.unique, ?_, hI.once.sublist (hrecovery.map _), ?_⟩
  · intro row' hrow'
    obtain ⟨row, hrow, rfl⟩ := List.mem_map.mp (horders ▸ hrow')
    rw [hminted, hid]
    exact hI.minted row hrow
  · intro row' hrow' hpending
    obtain ⟨row, hrow, rfl⟩ := List.mem_map.mp (horders ▸ hrow')
    obtain ⟨hkid, hbefore⟩ := hunsent row hrow hpending
    exact hkid.trans (hI.unsent row hrow hbefore)
  · intro item hitem row' hrow' hsame
    obtain ⟨row, hrow, rfl⟩ := List.mem_map.mp (horders ▸ hrow')
    rw [hid] at hsame
    rw [htaken item hitem row hrow hsame]
    exact hI.taken item (hrecovery.subset hitem) row hrow hsame

theorem TakenInvariant.idle (hI : TakenInvariant s) (horders : s'.db.orders = s.db.orders)
    (hminted : s'.service.minted = s.service.minted)
    (hrecovery : s'.recovery.taken.Sublist s.recovery.taken) : TakenInvariant s' :=
  hI.rewrite (f := id) (horders.trans (List.map_id _).symm) hminted hrecovery (fun _ => rfl)
    (fun _ _ h => ⟨rfl, h⟩) (fun _ _ _ _ _ => rfl)

theorem TakenInvariant.place (hI : TakenInvariant s) {row : Order}
    (horders : s'.db.orders = s.db.orders ++ [row]) (hstatus : row.status = "pending")
    (hkid : row.kalshiOrderId = none) (hfresh : row.clientOrderId ∉ s.service.minted)
    (hminted : s'.service.minted = s.service.minted ++ [row.clientOrderId])
    (hrecovery : s'.recovery = s.recovery) : TakenInvariant s' := by
  refine ⟨?_, ?_, ?_, hrecovery ▸ hI.once, ?_⟩
  · intro row' hrow'
    rw [hminted, List.mem_append]
    rcases List.mem_append.mp (horders ▸ hrow') with hold | hnew
    · exact .inl (hI.minted row' hold)
    · exact .inr (List.mem_singleton.mpr (congrArg _ (List.mem_singleton.mp hnew)))
  · rw [horders, List.map_append, List.nodup_append]
    refine ⟨hI.unique, List.nodup_singleton _, ?_⟩
    intro id hid id' hid'
    obtain ⟨row', hrow', rfl⟩ := List.mem_map.mp hid
    rw [List.map_singleton, List.mem_singleton] at hid'
    rintro rfl
    exact hfresh (hid' ▸ hI.minted row' hrow')
  · intro row' hrow' hpending
    rcases List.mem_append.mp (horders ▸ hrow') with hold | hnew
    · exact hI.unsent row' hold hpending
    · exact List.mem_singleton.mp hnew ▸ hkid
  · intro item hitem row' hrow' hsame
    rcases List.mem_append.mp (horders ▸ hrow') with hold | hnew
    · exact hI.taken item (hrecovery ▸ hitem) row' hold hsame
    · exact List.mem_singleton.mp hnew ▸ hstatus

theorem TakenInvariant.settle (hI : TakenInvariant s) {id : String} {change : Order → Order}
    (horders : s'.db.orders = (s.service.agent.updateOrder id change).db.orders)
    (hminted : s'.service.minted = s.service.minted)
    (hrecovery : s'.recovery.taken.Sublist s.recovery.taken)
    (hchange : ∀ row, (change row).clientOrderId = row.clientOrderId ∧
      (change row).status ≠ "pending")
    (hother : ∀ item ∈ s'.recovery.taken, item.clientOrderId ≠ id) : TakenInvariant s' := by
  refine hI.rewrite horders hminted hrecovery (fun row => ?_) (fun row _ => ?_)
    (fun item hitem row _ hsame => ?_)
  · split_ifs
    · exact (hchange row).1
    · rfl
  · split_ifs
    · exact fun hpending => absurd hpending (hchange row).2
    · exact fun hpending => ⟨rfl, hpending⟩
  · rw [if_neg (hsame ▸ hother item hitem)]

theorem TakenInvariant.stage (hI : TakenInvariant s) {step : ServiceStep} {service : Service}
    (h : Staged cfg s step service) (hspares : s.Spares step) :
    TakenInvariant { s with service := service } := by
  cases serviceStep_orders h.runs h.survives h.others with
  | idle horders hminted => exact hI.idle horders hminted (List.Sublist.refl _)
  | places row horders hstatus hkid hfresh hminted =>
    exact hI.place horders hstatus hkid hfresh hminted rfl
  | ends id outcome cfg clock hflight hover hphase hminted horders =>
    have hends : s.service.ends step = some (id, outcome) := by
      rw [Service.ends, hflight, hphase]
    have htaken := hspares (id, outcome) hends
    cases outcome with
    | ok response =>
      obtain ⟨o, _, _, _, hstatus⟩ := answered_truthfully hphase h.truthful
      refine hI.settle horders hminted (List.Sublist.refl _) (fun row => ⟨rfl, ?_⟩) (htaken rfl)
      intro hpending
      rw [show response.status = "pending" from hpending] at hstatus
      exact absurd hstatus (by decide)
    | error e =>
      have hfailed : ∀ row : Order, ({ row with status := "send_failed" } : Order).clientOrderId =
          row.clientOrderId ∧ ({ row with status := "send_failed" } : Order).status ≠ "pending" :=
        fun _ => ⟨rfl, (by decide : "send_failed" ≠ "pending")⟩
      cases e with
      | api statusCode body =>
        exact hI.settle horders hminted (List.Sublist.refl _) hfailed (htaken rfl)
      | auth message =>
        exact hI.settle horders hminted (List.Sublist.refl _) hfailed (htaken rfl)
      | other message => exact hI.idle horders hminted (List.Sublist.refl _)

theorem TakenInvariant.scan (hI : TakenInvariant s) :
    TakenInvariant { s with recovery := .start s.db } := by
  refine ⟨hI.minted, hI.unique, hI.unsent, ?_, ?_⟩
  · have hids : (Recovery.start s.db).taken.map InFlight.clientOrderId =
        (s.db.orders.filter (fun o => o.status = "pending")).map Order.clientOrderId :=
      List.map_map
    rw [hids]
    exact hI.unique.sublist (List.filter_sublist.map _)
  · intro item hitem row hrow hsame
    obtain ⟨row', hrow', rfl⟩ := List.mem_map.mp hitem
    rw [List.mem_filter] at hrow'
    rw [List.inj_on_of_nodup_map hI.unique hrow hrow'.1 hsame]
    exact of_decide_eq_true hrow'.2

theorem taken_listed (items : List InFlight) (todo : List ServerStatus)
    (remote page : List ServerOrder) : (Recovery.listed items todo remote page).taken = items := by
  unfold Recovery.listed
  split <;> rfl

theorem TakenInvariant.leavesNewer (hI : TakenInvariant s) (step : RestartStep) :
    LeavesNewer cfg s step := by
  cases step with
  | commit =>
    unfold LeavesNewer
    simp only [restartStep]
    cases hphase : s.recovery with
    | committing items remote summary =>
      cases items with
      | nil => trivial
      | cons item items =>
        obtain ⟨change, horders, _⟩ := recoverOrder_orders s.service.agent remote summary item
        intro row hrow hstatus
        have htaken := hI.taken item (by rw [hphase]; exact List.mem_cons_self) row hrow
        show row ∈ (recoverOrder s.service.agent remote summary item).1.db.orders
        rw [horders]
        exact mem_updateOrder.mpr ⟨row, hrow, .inr ⟨fun hsame => hstatus (htaken hsame), rfl⟩⟩
    | waiting | listing items todo remote | ended summary => trivial
  | service step | transmit accepted | reply reply clock | serverMoves orderId status
    | ingested orderId | halted reason n | crash step | scan | listed page | listFailed e
    | finish => trivial

theorem TakenInvariant.step {step : RestartStep} (hI : TakenInvariant s)
    (hguard : LeavesTaken s step) (h : restartStep cfg s step = some s') : TakenInvariant s' := by
  cases restartStep_rule h with
  | service step service hstage => exact hI.stage hstage hguard
  | reply reply clock service hstage => exact hI.stage hstage hguard
  | transmit accepted clientOrderId service hflight hservice =>
    obtain ⟨horders, hminted, _⟩ := token_sends hservice
    exact hI.idle horders hminted (List.Sublist.refl _)
  | serverMoves orderId status => exact hI.idle rfl rfl (List.Sublist.refl _)
  | ingested orderId =>
    -- a pending row has no exchange id that a fill could name
    have hunmarked : ∀ row ∈ s.db.orders, row.status = "pending" →
        ¬ (row.kalshiOrderId = some orderId ∧ row.status ∉ ["filled", "cancelled"]) := by
      intro row hrow hpending hmarked
      rw [hI.unsent row hrow hpending] at hmarked
      cases hmarked.1
    refine hI.rewrite rfl rfl (List.Sublist.refl _) (fun row => ?_) (fun row hrow => ?_)
      (fun item hitem row hrow hsame => ?_)
    · split_ifs <;> rfl
    · split_ifs
      · exact fun hpending => absurd hpending (by decide : "filled" ≠ "pending")
      · exact fun hpending => ⟨rfl, hpending⟩
    · rw [if_neg (hunmarked row hrow (hI.taken item hitem row hrow hsame))]
  | halted reason n =>
    refine hI.rewrite rfl rfl (List.Sublist.refl _) (fun row => ?_) (fun row hrow => ?_)
      (fun item hitem row hrow hsame => absurd hsame (hguard item hitem row hrow))
    · split_ifs <;> rfl
    · split_ifs
      · exact fun hpending => absurd hpending (by decide : "cancelled_by_halt" ≠ "pending")
      · exact fun hpending => ⟨rfl, hpending⟩
  | crash step service hkills hservice =>
    obtain ⟨horders, hminted, _⟩ := serviceStep_kills hservice hkills
    exact hI.idle horders hminted (List.nil_sublist _)
  | scan hphase => exact hI.scan
  | listed page items status todo remote hphase hagrees =>
    refine hI.idle rfl rfl ?_
    rw [taken_listed, hphase]
    exact List.Sublist.refl _
  | listFailed e items todo remote hphase => exact hI.idle rfl rfl (List.nil_sublist _)
  | commit item items remote summary hphase =>
    obtain ⟨change, horders, hchange, _⟩ := recoverOrder_orders s.service.agent remote summary item
    have honce := hI.once
    rw [hphase] at honce
    refine hI.settle horders rfl ?_ hchange ?_
    · rw [hphase]
      exact List.sublist_cons_self item items
    · intro item' hitem' hsame
      exact (List.nodup_cons.mp honce).1 (hsame ▸ List.mem_map_of_mem hitem')
  | finish remote summary hphase => exact hI.idle rfl rfl (List.nil_sublist _)

end Invariant

/-- In a run in which the other tasks spare the orders that a recovery has taken, no recovery
writes over a newer status. -/
theorem recovery_leaves_newer (cfg : Config) (kill : KillSwitch) (steps : List RestartStep)
    (hguard : AllSteps (restartStep cfg) LeavesTaken (.start kill) steps) :
    AllSteps (restartStep cfg) (LeavesNewer cfg) (.start kill) steps := by
  refine allSteps_of_allSteps (I := TakenInvariant) (fun s step s' hI hg h => hI.step hg h)
    (fun s step hI _ => hI.leavesNewer step) ⟨?_, List.nodup_nil, ?_, List.nodup_nil, ?_⟩ hguard
  · exact fun row hrow => absurd hrow List.not_mem_nil
  · exact fun row hrow => absurd hrow List.not_mem_nil
  · exact fun item hitem => absurd hitem List.not_mem_nil

theorem recovery_leaves_newer_lostResponse :
    AllSteps (restartStep (.example (.fixed 0))) (LeavesNewer (.example (.fixed 0))) (.start ⟨none⟩)
      (acceptedBuy ++ lookedUp ++ [.commit]) :=
  recovery_leaves_newer (.example (.fixed 0)) ⟨none⟩ (acceptedBuy ++ lookedUp ++ [.commit])
    (by decide +kernel)

def haltedWhileListing : List RestartStep :=
  [.service (.enter buySignal 0), .service (.market (.ok openMarket) ⟨0, 0⟩),
    .service (.bankroll (.ok 100) ⟨0, 0⟩ ⟨0, 0⟩ "c1"), .crash .crash, .scan, .listed [],
    .halted none 0, .listed [], .listed [], .commit]

theorem not_recovery_leaves_newer :
    ¬ AllSteps (restartStep (.example (.fixed 0))) (LeavesNewer (.example (.fixed 0)))
      (.start ⟨none⟩) haltedWhileListing := by
  decide +kernel

end KalshiAgent

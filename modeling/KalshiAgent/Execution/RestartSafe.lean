import KalshiAgent.Execution.RestartInvariant

/-! Every run whose steps meet the condition is restart-safe, and a run in which the exchange
refuses a retry as a duplicate is not. -/

namespace KalshiAgent
open Execution

section Steps
variable {cfg : Config} {s s' : Restarting}

theorem RestartInvariant.stage (hI : RestartInvariant s) {step : ServiceStep} {service : Service}
    (h : Staged cfg s step service) (hends : s.Answers step) :
    RestartInvariant { s with service := service } := by
  cases serviceStep_orders h.runs h.survives h.others with
  | idle horders hminted hsending => exact hI.idle rfl rfl horders hminted hsending
  | places row horders hstatus hkid hfresh hminted hidle hsending =>
    exact hI.place rfl rfl horders hstatus hkid hfresh hminted hidle hsending
  | ends id outcome cfg clock hflight hover hphase hminted horders =>
    rw [Restarting.Answers, hflight, hphase] at hends
    exact hI.endCall rfl rfl hminted hflight hover hphase horders h.truthful hends

theorem token_sends {service : Service} (h : serviceStep cfg s.service .token = some service) :
    service.agent.db.orders = s.db.orders ∧ service.minted = s.service.minted ∧
      service.sending = s.service.sending := by
  cases serviceStep_rule h with
  | token request attempt lastExc hholder => exact ⟨rfl, rfl, (sending_ordering hholder).symm⟩

theorem RestartInvariant.step {step : RestartStep} (hI : RestartInvariant s)
    (hguard : RestartGuard s step) (h : restartStep cfg s step = some s') : RestartInvariant s' := by
  cases restartStep_rule h with
  | service step service hstage => exact hI.stage hstage hguard
  | reply reply clock service hstage => exact hI.stage hstage hguard
  | transmit accepted clientOrderId service hflight hservice =>
    obtain ⟨horders, hminted, hsending⟩ := token_sends hservice
    exact hI.accept rfl rfl horders hminted hsending hflight hguard
  | serverMoves orderId status => exact hI.serverMove rfl rfl rfl
  | ingested orderId =>
    refine hI.mark rfl rfl rfl rfl rfl (fun row => ?_) (fun row => ?_) (fun o ho => ?_)
    · split_ifs <;> exact ⟨rfl, rfl⟩
    · split_ifs
      · exact .inr (by decide : "filled" ∉ ["pending", "lost", "send_failed"])
      · exact .inl rfl
    · refine (hI.known o ho).imp_right (Or.imp_left ?_)
      rintro ⟨row, hrow, hid, hpending⟩
      refine ⟨row, hrow, hid, ?_⟩
      rw [if_neg (fun h => Option.some_ne_none _ (h.1.symm.trans (hI.pending row hrow hpending)))]
      exact hpending
  | halted reason n =>
    refine hI.mark rfl rfl rfl rfl rfl (fun row => ?_) (fun row => ?_) (fun o ho => ?_)
    · split_ifs <;> exact ⟨rfl, rfl⟩
    · split_ifs
      · exact .inr (by decide : "cancelled_by_halt" ∉ ["pending", "lost", "send_failed"])
      · exact .inl rfl
    · exact (hguard o ho).imp_right .inr
  | crash step service hkills hservice =>
    obtain ⟨horders, hminted, hsending⟩ := serviceStep_kills hservice hkills
    exact hI.abandon rfl (.inr rfl) horders hminted hsending hguard
  | scan hphase => exact hI.scan hguard
  | listed page items status todo remote hphase hagrees =>
    rw [RestartGuard, Restarting.PageComplete, hphase] at hguard
    exact hI.listed hphase hagrees hguard
  | listFailed e items todo remote hphase =>
    exact ⟨hI.minted, hI.single, hI.sending, hI.pending, hI.known, hI.givenUp, trivial⟩
  | commit item items remote summary hphase => exact hI.commit hphase rfl
  | finish remote summary hphase =>
    exact ⟨hI.minted, hI.single, hI.sending, hI.pending, hI.known, hI.givenUp, trivial⟩

end Steps

/-- In a run whose steps all meet the condition, every completed recovery leaves every order of the
exchange in its row, and gives none of them up. -/
theorem restart_safe (cfg : Config) (kill : KillSwitch) (steps : List RestartStep)
    (hguard : AllSteps (restartStep cfg) RestartGuard (.start kill) steps) :
    AllStates (restartStep cfg) RestartSafe (.start kill) steps := by
  refine allStates_of_allSteps (I := RestartInvariant) (fun s step s' hI hg h => hI.step hg h)
    (fun s hI => hI.restartSafe) ⟨?_, ?_, ?_, ?_, ?_, ?_, trivial⟩ hguard
  · exact fun o ho => absurd ho List.not_mem_nil
  · exact fun o ho => absurd ho List.not_mem_nil
  · exact fun id hflight => absurd hflight (Option.some_ne_none id).symm
  · exact fun row hrow => absurd hrow List.not_mem_nil
  · exact fun o ho => absurd ho List.not_mem_nil
  · exact fun row hrow => absurd hrow List.not_mem_nil

def acceptedBuy : List RestartStep :=
  [.service (.enter buySignal 0), .service (.market (.ok openMarket) ⟨0, 0⟩),
    .service (.bankroll (.ok 100) ⟨0, 0⟩ ⟨0, 0⟩ "c1"), .transmit (some ("k1", .executed))]

def lookedUp : List RestartStep :=
  [.crash .crash, .scan, .listed [], .listed [⟨"k1", "c1", .executed⟩], .listed []]

theorem restart_safe_lostResponse :
    AllStates (restartStep (.example (.fixed 0))) RestartSafe (.start ⟨none⟩)
      (acceptedBuy ++ lookedUp ++ [.commit]) :=
  restart_safe (.example (.fixed 0)) ⟨none⟩ (acceptedBuy ++ lookedUp ++ [.commit])
    (by decide +kernel)

def duplicateRefused : List RestartStep :=
  acceptedBuy ++ [.reply unavailable ⟨0, 0⟩, .service (.wake ⟨0, 0⟩), .transmit none,
    .reply (.response 409 "duplicate client_order_id" .wakes (.error (.other ""))) ⟨0, 0⟩] ++ lookedUp

theorem not_restartSafe_duplicateRefused :
    ¬ AllStates (restartStep (.example (.fixed 0))) RestartSafe (.start ⟨none⟩)
      duplicateRefused := by
  intro h
  have hrun : (exec (restartStep (.example (.fixed 0))) (.start ⟨none⟩) duplicateRefused).map
      (fun s => (s.recovery, s.server, s.db.orders.map Order.kalshiOrderId)) =
        some (.committing [] [⟨"k1", "c1", .executed⟩] ⟨0, 0, 0, none⟩,
          [⟨"k1", "c1", .executed⟩], [none]) := by
    decide +kernel
  obtain ⟨s, hs, hend⟩ := h.last_view hrun
  simp only [Prod.mk.injEq] at hend
  obtain ⟨hrecovery, hserver, hkids⟩ := hend
  obtain ⟨row, hrow, _, hkid⟩ := (hs _ _ hrecovery).carried ⟨"k1", "c1", .executed⟩
    (hserver ▸ List.mem_cons_self)
  have hnone : row.kalshiOrderId ∈ s.db.orders.map Order.kalshiOrderId := List.mem_map_of_mem hrow
  rw [hkids, hkid] at hnone
  exact absurd hnone (by decide)

end KalshiAgent

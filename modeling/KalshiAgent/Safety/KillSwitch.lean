import KalshiAgent.Kalshi.Types

/-! The file-based kill switch: the HALT file's existence is the truth. -/

namespace KalshiAgent

inductive HaltReason
  | manual (text : String)
  | errorSpike (errors : ℕ) (windowSeconds : ℤ)
  | runawayOrderRate (ordersLastMinute : ℕ)
  | dailyLossBreach (dailyPnl : ℚ)
  | postHocExposureBreach (totalExposure : ℚ)
  | postHocDailyLoss (dailyPnl : ℚ)
  | wsSilent (seconds : ℤ)
  deriving DecidableEq

structure Halt where
  reason : HaltReason
  source : String
  deriving DecidableEq

structure KillSwitch where
  halt : Option Halt
  deriving DecidableEq

namespace KillSwitch

def isEngaged (k : KillSwitch) : Bool := k.halt.isSome

def engage (k : KillSwitch) (reason : HaltReason) (source : String) : KillSwitch :=
  match k.halt with
  | some _ => k  -- kill_switch_already_engaged
  | none => ⟨some ⟨reason, source⟩⟩

/-- Whether there was a file to remove, beside the switch without it. -/
def disengage (k : KillSwitch) : KillSwitch × Bool := (⟨none⟩, k.isEngaged)

variable (k : KillSwitch) (reason : HaltReason) (source : String)

@[simp] theorem isEngaged_engage : (k.engage reason source).isEngaged = true := by
  obtain ⟨_ | halt⟩ := k <;> rfl

@[simp] theorem isEngaged_disengage : k.disengage.1.isEngaged = false := rfl

end KillSwitch

end KalshiAgent

import KalshiAgent.Storage.Models

/-! The halt monitor: it watches the HALT file and, when the file appears, cancels what rests on
the exchange. A tick that has to cancel waits for the exchange before it is over. -/

namespace KalshiAgent

structure HaltMonitor where
  lastState : Bool
  -- the reason read by a tick that now waits for `cancel_all_resting`
  cancelling : Option (Option Halt)

def HaltMonitor.start (kill : KillSwitch) : HaltMonitor := ⟨kill.isEngaged, none⟩

def onEngaged (db : Db) (reason : Option Halt) (n : ℤ) : Db :=
  { db with
    events := db.events ++ [{
      kind := "halt_actions"
      level := "warning"
      message := "cancelled " ++ toString n ++ " resting orders on HALT engage"
      payload := .halt reason n }]
    orders := db.orders.map (fun o =>
      if o.status ∈ ["pending", "resting", "open"] then { o with status := "cancelled_by_halt" }
      else o) }

def onDisengaged (db : Db) : Db :=
  { db with events := db.events ++ [⟨"halt_actions", "info", "HALT disengaged", .null⟩] }

/-- A tick up to its end, or up to the cancelling of the resting orders. -/
def HaltMonitor.tick (monitor : HaltMonitor) (db : Db) (kill : KillSwitch) : HaltMonitor × Db :=
  let state := kill.isEngaged
  if state ∧ ¬ monitor.lastState then ({ monitor with cancelling := some kill.halt }, db)
  else if ¬ state ∧ monitor.lastState then ({ monitor with lastState := state }, onDisengaged db)
  else ({ monitor with lastState := state }, db)

/-- The rest of a tick that cancelled; `n` is -1 when the cancelling raised. -/
def HaltMonitor.cancelled (monitor : HaltMonitor) (db : Db) (n : ℤ) : HaltMonitor × Db :=
  match monitor.cancelling with
  | none => (monitor, db)
  | some reason => (⟨true, none⟩, onEngaged db reason n)

theorem HaltMonitor.tick_cases (monitor : HaltMonitor) (db : Db) (kill : KillSwitch)
    (hidle : monitor.cancelling = none) :
    (kill.isEngaged = true ∧ monitor.lastState = false ∧
        (monitor.tick db kill).1 = ⟨false, some kill.halt⟩) ∨
      ((kill.isEngaged = true → monitor.lastState = true) ∧
        (monitor.tick db kill).1 = ⟨kill.isEngaged, none⟩) := by
  obtain ⟨last, cancelling⟩ := monitor
  dsimp only at hidle
  subst hidle
  unfold tick
  cases kill.isEngaged <;> cases last <;> simp

end KalshiAgent

import KalshiAgent.Execution.Restart

/-! What holds between the exchange, the order rows and a recovery under way, and that each kind of
step keeps it: a stage of the executor, the end of a call, what the exchange does, and the scan,
the pages and the commits of a recovery. -/

namespace KalshiAgent

def Carried (orders : List Order) (o : ServerOrder) : Prop :=
  ∃ row ∈ orders, row.clientOrderId = o.clientOrderId ∧ row.kalshiOrderId = some o.orderId

def PendingRow (orders : List Order) (clientOrderId : String) : Prop :=
  ∃ row ∈ orders, row.clientOrderId = clientOrderId ∧ row.status = "pending"

def ServerOrder.Same (o o' : ServerOrder) : Prop :=
  o.orderId = o'.orderId ∧ o.clientOrderId = o'.clientOrderId

/-- What a recovery under way has to go on: no order is being sent to the exchange, and an order it
holds is carried, or its row is among those still to be looked up. -/
structure Covers (s : Restarting) (items : List InFlight) : Prop where
  idle : ∀ o ∈ s.server, s.service.sending ≠ some o.clientOrderId
  found : ∀ o ∈ s.server, Carried s.db.orders o ∨ ∃ item ∈ items, item.clientOrderId = o.clientOrderId

/-- The resting orders are listed first, so one that moves on is listed then or after. -/
def RestingFirst (todo : List ServerStatus) : Prop :=
  (.resting ∈ todo → ∀ status, status ∈ todo) ∧ .resting ∉ todo.tail

def Recovering (s : Restarting) : Recovery → Prop
  | .waiting => True
  | .listing items todo remote => Covers s items ∧
    (∀ o ∈ s.server, (∃ r ∈ remote, r.Same o) ∨ o.status ∈ todo) ∧
    (∀ r ∈ remote, ∃ o ∈ s.server, r.Same o) ∧ RestingFirst todo
  | .committing items remote _ => Covers s items ∧
    (∀ o ∈ s.server, ∃ r ∈ remote, r.Same o) ∧ (∀ r ∈ remote, ∃ o ∈ s.server, r.Same o)
  | .ended _ => True

structure RestartInvariant (s : Restarting) : Prop where
  minted : ∀ o ∈ s.server, o.clientOrderId ∈ s.service.minted
  single : ∀ o ∈ s.server, ∀ o' ∈ s.server, o.clientOrderId = o'.clientOrderId →
    o.orderId = o'.orderId
  sending : ∀ id, s.service.sending = some id → id ∈ s.service.minted ∧
    ∃ row ∈ s.db.orders, row.clientOrderId = id
  pending : ∀ row ∈ s.db.orders, row.status = "pending" → row.kalshiOrderId = none
  known : ∀ o ∈ s.server, Carried s.db.orders o ∨ PendingRow s.db.orders o.clientOrderId ∨
    s.service.sending = some o.clientOrderId
  givenUp : ∀ row ∈ s.db.orders, row.status = "lost" ∨ row.status = "send_failed" →
    s.Holds row.clientOrderId → s.service.sending = some row.clientOrderId
  recovering : Recovering s s.recovery

section Invariant
variable {cfg : Config} {s s' : Restarting}

theorem RestartInvariant.restartSafe (hI : RestartInvariant s) : RestartSafe s := by
  intro remote summary hrecovery
  have hrecovering := hI.recovering
  rw [hrecovery] at hrecovering
  obtain ⟨hcovers, _, _⟩ := hrecovering
  refine ⟨fun o ho => ?_, fun row hrow hstatus hholds => ?_⟩
  · obtain hcarried | ⟨item, hitem, _⟩ := hcovers.found o ho
    · exact hcarried
    · exact absurd hitem List.not_mem_nil
  · obtain ⟨o, ho, hid⟩ := hholds
    exact hcovers.idle o ho (hid ▸ hI.givenUp row hrow hstatus ⟨o, ho, hid⟩)

theorem Carried.same {orders : List Order} {o o' : ServerOrder} (h : Carried orders o)
    (hsame : o.Same o') : Carried orders o' := by
  obtain ⟨row, hrow, hid, hkid⟩ := h
  exact ⟨row, hrow, hid.trans hsame.2, hkid.trans (congrArg some hsame.1)⟩

theorem Recovering.moves {recovery : Recovery} (h : Recovering s recovery)
    (hfrom : ∀ o' ∈ s'.server, ∃ o ∈ s.server, o.Same o' ∧
      (o.status = o'.status ∨ o.status = .resting))
    (hto : ∀ o ∈ s.server, ∃ o' ∈ s'.server, o.Same o')
    (hcarried : ∀ o ∈ s.server, Carried s.db.orders o → Carried s'.db.orders o)
    (hsending : ∀ o ∈ s.server, s'.service.sending = some o.clientOrderId →
      s.service.sending = some o.clientOrderId) : Recovering s' recovery := by
  have hcovers : ∀ {items : List InFlight}, Covers s items → Covers s' items := by
    intro items hc
    refine ⟨fun o' ho' hs => ?_, fun o' ho' => ?_⟩
    · obtain ⟨o, ho, ⟨_, hid⟩, _⟩ := hfrom o' ho'
      exact hc.idle o ho (hsending o ho (hid ▸ hs))
    · obtain ⟨o, ho, hsame, _⟩ := hfrom o' ho'
      rw [← hsame.2]
      exact (hc.found o ho).imp_left (fun h => (hcarried o ho h).same hsame)
  have hseen : ∀ {remote : List ServerOrder}, (∀ r ∈ remote, ∃ o ∈ s.server, r.Same o) →
      ∀ r ∈ remote, ∃ o ∈ s'.server, r.Same o := by
    intro remote h r hr
    obtain ⟨o, ho, horder, hid⟩ := h r hr
    obtain ⟨o', ho', horder', hid'⟩ := hto o ho
    exact ⟨o', ho', horder.trans horder', hid.trans hid'⟩
  cases recovery with
  | waiting => trivial
  | ended summary => trivial
  | listing items todo remote =>
    obtain ⟨hc, hlisted, hremote, htodo⟩ := h
    refine ⟨hcovers hc, fun o' ho' => ?_, hseen hremote, htodo⟩
    obtain ⟨o, ho, hsame, hstatus⟩ := hfrom o' ho'
    obtain ⟨r, hr, horder, hid⟩ | hin := hlisted o ho
    · exact .inl ⟨r, hr, horder.trans hsame.1, hid.trans hsame.2⟩
    · obtain hkept | hresting := hstatus
      · exact .inr (hkept ▸ hin)
      · exact .inr (htodo.1 (hresting ▸ hin) _)
  | committing items remote summary =>
    obtain ⟨hc, hlisted, hremote⟩ := h
    refine ⟨hcovers hc, fun o' ho' => ?_, hseen hremote⟩
    obtain ⟨o, ho, hsame, _⟩ := hfrom o' ho'
    obtain ⟨r, hr, horder, hid⟩ := hlisted o ho
    exact ⟨r, hr, horder.trans hsame.1, hid.trans hsame.2⟩

theorem Recovering.mono {recovery : Recovery} (h : Recovering s recovery)
    (hserver : s'.server = s.server)
    (hcarried : ∀ o ∈ s.server, Carried s.db.orders o → Carried s'.db.orders o)
    (hsending : ∀ o ∈ s.server, s'.service.sending = some o.clientOrderId →
      s.service.sending = some o.clientOrderId) : Recovering s' recovery := by
  refine h.moves (fun o ho => ?_) (fun o ho => ?_) hcarried hsending
  · exact ⟨o, hserver ▸ ho, ⟨rfl, rfl⟩, .inl rfl⟩
  · exact ⟨o, hserver.symm ▸ ho, rfl, rfl⟩

theorem carried_append {orders : List Order} {o : ServerOrder} (row : Order)
    (h : Carried orders o) : Carried (orders ++ [row]) o := by
  obtain ⟨row₀, hrow₀, hrest⟩ := h
  exact ⟨row₀, List.mem_append_left _ hrow₀, hrest⟩

section Update
variable {agent : Agent} {id : String} {change : Order → Order}

theorem carried_updateOrder {o : ServerOrder} (hne : o.clientOrderId ≠ id)
    (h : Carried agent.db.orders o) : Carried (agent.updateOrder id change).db.orders o := by
  obtain ⟨row, hrow, hid, hkid⟩ := h
  exact ⟨row, mem_updateOrder.mpr ⟨row, hrow, .inr ⟨hid ▸ hne, rfl⟩⟩, hid, hkid⟩

theorem pendingRow_updateOrder {id' : String} (hne : id' ≠ id) (h : PendingRow agent.db.orders id') :
    PendingRow (agent.updateOrder id change).db.orders id' := by
  obtain ⟨row, hrow, hid, hstatus⟩ := h
  exact ⟨row, mem_updateOrder.mpr ⟨row, hrow, .inr ⟨hid ▸ hne, rfl⟩⟩, hid, hstatus⟩

end Update

theorem RestartInvariant.idle (hI : RestartInvariant s) (hserver : s'.server = s.server)
    (hrecovery : s'.recovery = s.recovery) (horders : s'.db.orders = s.db.orders)
    (hminted : s'.service.minted = s.service.minted)
    (hsending : s'.service.sending = s.service.sending) : RestartInvariant s' := by
  refine ⟨?_, ?_, ?_, ?_, ?_, ?_, ?_⟩
  · rw [hserver, hminted]
    exact hI.minted
  · rw [hserver]
    exact hI.single
  · rw [hsending, hminted, horders]
    exact hI.sending
  · rw [horders]
    exact hI.pending
  · rw [hserver, horders, hsending]
    exact hI.known
  · unfold Restarting.Holds
    rw [horders, hserver, hsending]
    exact hI.givenUp
  · rw [hrecovery]
    exact hI.recovering.mono hserver (fun _ _ h => horders ▸ h) (fun _ _ h => hsending ▸ h)

theorem RestartInvariant.place (hI : RestartInvariant s) {row : Order}
    (hserver : s'.server = s.server) (hrecovery : s'.recovery = s.recovery)
    (horders : s'.db.orders = s.db.orders ++ [row]) (hstatus : row.status = "pending")
    (hkid : row.kalshiOrderId = none) (hfresh : row.clientOrderId ∉ s.service.minted)
    (hminted : s'.service.minted = s.service.minted ++ [row.clientOrderId])
    (hidle : s.service.sending = none) (hsending : s'.service.sending = some row.clientOrderId) :
    RestartInvariant s' := by
  have hnot : ∀ o ∈ s.server, s'.service.sending ≠ some o.clientOrderId := by
    intro o ho hsame
    have hid : row.clientOrderId = o.clientOrderId := Option.some.inj (hsending.symm.trans hsame)
    exact hfresh (hid ▸ hI.minted o ho)
  refine ⟨?_, ?_, ?_, ?_, ?_, ?_, ?_⟩
  · rw [hserver, hminted]
    exact fun o ho => List.mem_append_left _ (hI.minted o ho)
  · rw [hserver]
    exact hI.single
  · intro id hid
    obtain rfl : row.clientOrderId = id := Option.some.inj (hsending.symm.trans hid)
    rw [hminted, horders]
    exact ⟨List.mem_append_right _ (List.mem_singleton.mpr rfl), row,
      List.mem_append_right _ (List.mem_singleton.mpr rfl), rfl⟩
  · rw [horders]
    intro row' hrow' hpending
    rcases List.mem_append.mp hrow' with hold | hnew
    · exact hI.pending row' hold hpending
    · exact List.mem_singleton.mp hnew ▸ hkid
  · rw [hserver, horders]
    intro o ho
    obtain hcarried | ⟨row₀, hrow₀, hrest⟩ | hflight := hI.known o ho
    · exact .inl (carried_append row hcarried)
    · exact .inr (.inl ⟨row₀, List.mem_append_left _ hrow₀, hrest⟩)
    · exact absurd (hidle.symm.trans hflight) (Option.some_ne_none _).symm
  · rw [horders]
    rintro row' hrow' hlost ⟨o, ho, hid⟩
    rw [hserver] at ho
    rcases List.mem_append.mp hrow' with hold | hnew
    · have hflight := hI.givenUp row' hold hlost ⟨o, ho, hid⟩
      exact absurd (hidle.symm.trans hflight) (Option.some_ne_none _).symm
    · obtain rfl := List.mem_singleton.mp hnew
      exact absurd (hid ▸ hI.minted o ho) hfresh
  · rw [hrecovery]
    refine hI.recovering.mono hserver (fun o _ h => ?_) (fun o ho h => absurd h (hnot o ho))
    rw [horders]
    exact carried_append row h

theorem RestartInvariant.abandon (hI : RestartInvariant s) (hserver : s'.server = s.server)
    (hrecovery : s'.recovery = s.recovery ∨ s'.recovery = .waiting)
    (horders : s'.db.orders = s.db.orders) (hminted : s'.service.minted = s.service.minted)
    (hsending : s'.service.sending = none)
    (hleft : s.LeftPending) : RestartInvariant s' := by
  have hpending : ∀ id, s.service.sending = some id → s.Holds id →
      ∀ row ∈ s.db.orders, row.clientOrderId = id → row.status = "pending" := by
    intro id hflight
    rw [Restarting.LeftPending, hflight] at hleft
    exact hleft
  refine ⟨?_, ?_, ?_, ?_, ?_, ?_, ?_⟩
  · rw [hserver, hminted]
    exact hI.minted
  · rw [hserver]
    exact hI.single
  · exact fun id hid => absurd (hsending.symm.trans hid) (Option.some_ne_none id).symm
  · rw [horders]
    exact hI.pending
  · rw [hserver, horders]
    intro o ho
    obtain hcarried | hpend | hflight := hI.known o ho
    · exact .inl hcarried
    · exact .inr (.inl hpend)
    · obtain ⟨_, row, hrow, hid⟩ := hI.sending _ hflight
      exact .inr (.inl ⟨row, hrow, hid, hpending _ hflight ⟨o, ho, rfl⟩ row hrow hid⟩)
  · rw [horders]
    intro row hrow hlost hholds
    rw [Restarting.Holds, hserver] at hholds
    have hflight := hI.givenUp row hrow hlost hholds
    have hstatus := hpending _ hflight hholds row hrow rfl
    rw [hstatus] at hlost
    exact absurd hlost (by decide)
  · rcases hrecovery with hsame | hwaiting
    · rw [hsame]
      exact hI.recovering.mono hserver (fun _ _ h => horders ▸ h)
        (fun o _ h => absurd (hsending.symm.trans h) (Option.some_ne_none _).symm)
    · rw [hwaiting]
      trivial

theorem RestartInvariant.settle (hI : RestartInvariant s) {id : String} {change : Order → Order}
    (hserver : s'.server = s.server) (hrecovery : s'.recovery = s.recovery)
    (horders : s'.db.orders = (s.service.agent.updateOrder id change).db.orders)
    (hminted : s'.service.minted = s.service.minted) (hflight : s.service.sending = some id)
    (hsending : s'.service.sending = none)
    (hchange : ∀ row, (change row).clientOrderId = row.clientOrderId ∧ (change row).status ≠ "pending")
    (hcarried : ∀ o ∈ s.server, o.clientOrderId = id → Carried s'.db.orders o)
    (hgivenUp : s.Holds id → ∀ row, (change row).status ≠ "lost" ∧
      (change row).status ≠ "send_failed") : RestartInvariant s' := by
  have hmono : ∀ o ∈ s.server, Carried s.db.orders o → Carried s'.db.orders o := by
    intro o ho h
    by_cases hid : o.clientOrderId = id
    · exact hcarried o ho hid
    · exact horders ▸ carried_updateOrder hid h
  refine ⟨?_, ?_, ?_, ?_, ?_, ?_, ?_⟩
  · rw [hserver, hminted]
    exact hI.minted
  · rw [hserver]
    exact hI.single
  · exact fun id hid => absurd (hsending.symm.trans hid) (Option.some_ne_none id).symm
  · rw [horders]
    intro row' hrow' hpending
    obtain ⟨row, hrow, ⟨_, rfl⟩ | ⟨_, rfl⟩⟩ := mem_updateOrder.mp hrow'
    · exact absurd hpending (hchange row).2
    · exact hI.pending row hrow hpending
  · rw [hserver]
    intro o ho
    by_cases hid : o.clientOrderId = id
    · exact .inl (hcarried o ho hid)
    obtain hold | hpend | hother := hI.known o ho
    · exact .inl (hmono o ho hold)
    · exact .inr (.inl (horders ▸ pendingRow_updateOrder hid hpend))
    · exact absurd (Option.some.inj (hflight.symm.trans hother)).symm hid
  · intro row' hrow' hlost hholds
    rw [horders] at hrow'
    rw [Restarting.Holds, hserver] at hholds
    obtain ⟨row, hrow, ⟨hid, rfl⟩ | ⟨hid, rfl⟩⟩ := mem_updateOrder.mp hrow'
    · rw [(hchange row).1, hid] at hholds
      obtain ⟨hnotLost, hnotFailed⟩ := hgivenUp hholds row
      exact (hlost.elim hnotLost hnotFailed).elim
    · have hother := hI.givenUp row hrow hlost hholds
      exact absurd (Option.some.inj (hflight.symm.trans hother)).symm hid
  · rw [hrecovery]
    exact hI.recovering.mono hserver hmono
      (fun o _ h => absurd (hsending.symm.trans h) (Option.some_ne_none _).symm)

theorem onReply_ok {attempt : ℕ} {lastExc : Option ClientError} {reply : HttpReply OrderResponse}
    {response : OrderResponse}
    (h : RequestPhase.onReply attempt lastExc reply = .finished (.ok response)) :
    ∃ statusCode text retryAfter, reply = .response statusCode text retryAfter (.ok response) ∧
      statusCode < 400 := by
  have hpause : ∀ (lastExc : Option ClientError) (sleep : Sleep),
      RequestPhase.pause attempt lastExc sleep ≠ .finished (.ok response) := by
    intro lastExc sleep
    cases sleep <;> nofun
  cases reply with
  | httpError message => exact absurd h (hpause _ _)
  | response statusCode text retryAfter body =>
    unfold RequestPhase.onReply at h
    dsimp only at h
    split_ifs at h with hlimited hserver hauth herror
    · exact absurd h (hpause _ _)
    · exact absurd h (hpause _ _)
    · cases h
    · cases h
    · cases h
      exact ⟨statusCode, text, retryAfter, rfl, not_le.mp herror⟩

theorem answered_truthfully {step : ServiceStep} {response : OrderResponse}
    (hphase : s.service.phaseAfter step = some (.finished (.ok response)))
    (htruthful : ∀ reply clock, step = .reply reply clock → s.truthful reply = true) :
    ∃ o ∈ s.server, s.service.sending = some o.clientOrderId ∧ response.orderId = o.orderId ∧
      response.status ∈ ["resting", "executed", "canceled"] := by
  cases step with
  | reply reply clock =>
    unfold Service.phaseAfter at hphase
    dsimp only at hphase
    split at hphase
    · obtain ⟨statusCode, text, retryAfter, rfl, hsuccess⟩ := onReply_ok (Option.some.inj hphase)
      have htrue := htruthful _ clock rfl
      simp only [Restarting.truthful, not_le.mpr hsuccess, false_or, decide_eq_true_eq,
        List.any_eq_true] at htrue
      exact htrue
    · cases hphase
  | wake clock =>
    unfold Service.phaseAfter at hphase
    dsimp only at hphase
    split at hphase
    · unfold RequestPhase.onWake at hphase
      split_ifs at hphase <;> cases Option.some.inj hphase
    · cases hphase
  | others agent | enter signal now | market fetched clock
    | bankroll fetched clock later clientOrderId | bankrollCrash fetched clock later clientOrderId
    | token | crash => cases hphase

theorem RestartInvariant.endCall (hI : RestartInvariant s) {step : ServiceStep} {id : String}
    {outcome : Except ClientError OrderResponse} {clock : Clock}
    (hserver : s'.server = s.server) (hrecovery : s'.recovery = s.recovery)
    (hminted : s'.service.minted = s.service.minted) (hflight : s.service.sending = some id)
    (hsending : s'.service.sending = none)
    (hphase : s.service.phaseAfter step = some (.finished outcome))
    (horders : s'.db.orders = (recordOutcome cfg s.service.agent id outcome clock).db.orders)
    (htruthful : ∀ reply clock, step = .reply reply clock → s.truthful reply = true)
    (hends : s.EndsWell id (.finished outcome)) : RestartInvariant s' := by
  cases outcome with
  | ok response =>
    obtain ⟨o, ho, hid, horder, hstatus⟩ := answered_truthfully hphase htruthful
    obtain rfl : id = o.clientOrderId := Option.some.inj (hflight.symm.trans hid)
    have hvocabulary : response.status ≠ "pending" ∧ response.status ≠ "lost" ∧
        response.status ≠ "send_failed" := by
      simp only [List.mem_cons, List.not_mem_nil, or_false] at hstatus
      obtain h | h | h := hstatus <;> rw [h] <;> decide
    refine hI.settle hserver hrecovery horders hminted hflight hsending
      (fun _ => ⟨rfl, hvocabulary.1⟩) (fun o' ho' hsame => ?_) (fun _ _ => hvocabulary.2)
    obtain ⟨_, row, hrow, hrowId⟩ := hI.sending _ hflight
    refine ⟨_, horders ▸ mem_updateOrder.mpr ⟨row, hrow, .inl ⟨hrowId, rfl⟩⟩, ?_, ?_⟩
    · exact hrowId.trans hsame.symm
    · exact congrArg some (horder.trans (hI.single o ho o' ho' hsame.symm))
  | error e =>
    have hfailed : ¬ s.Holds id → s'.db.orders = (s.service.agent.updateOrder id
        (fun row => { row with status := "send_failed" })).db.orders → RestartInvariant s' := by
      intro hnot hupdate
      refine hI.settle hserver hrecovery hupdate hminted hflight hsending
        (fun _ => ⟨rfl, (by decide : "send_failed" ≠ "pending")⟩) (fun o ho hid => ?_)
        (fun hholds => absurd hholds hnot)
      exact absurd ⟨o, ho, hid⟩ hnot
    cases e with
    | api statusCode body => exact hfailed hends horders
    | auth message => exact hfailed hends horders
    | other message =>
      refine hI.abandon hserver (.inl hrecovery) horders hminted hsending ?_
      rw [Restarting.LeftPending, hflight]
      exact hends

theorem mem_accept {server : List ServerOrder} {id : String}
    {accepted : Option (String × ServerStatus)} {o : ServerOrder}
    (ho : o ∈ Restarting.accept server id accepted) :
    o ∈ server ∨ (o.clientOrderId = id ∧ (¬ ∃ o' ∈ server, o'.clientOrderId = id) ∧
      Restarting.accept server id accepted = server ++ [o]) := by
  unfold Restarting.accept at ho ⊢
  cases accepted with
  | none => exact .inl ho
  | some placed =>
    dsimp only at ho ⊢
    split_ifs at ho ⊢ with hheld
    · exact .inl ho
    · rcases List.mem_append.mp ho with hold | hnew
      · exact .inl hold
      · obtain rfl := List.mem_singleton.mp hnew
        exact .inr ⟨rfl, hheld, rfl⟩

theorem RestartInvariant.accept (hI : RestartInvariant s) {id : String}
    {accepted : Option (String × ServerStatus)}
    (hserver : s'.server = Restarting.accept s.server id accepted)
    (hrecovery : s'.recovery = s.recovery) (horders : s'.db.orders = s.db.orders)
    (hminted : s'.service.minted = s.service.minted)
    (hsending : s'.service.sending = s.service.sending) (hflight : s.service.sending = some id)
    (hidle : s.recovery.Idle) : RestartInvariant s' := by
  have hmem : ∀ o ∈ s'.server, o ∈ s.server ∨ (o.clientOrderId = id ∧
      (¬ ∃ o' ∈ s.server, o'.clientOrderId = id) ∧ s'.server = s.server ++ [o]) := by
    intro o ho
    rw [hserver] at ho ⊢
    exact mem_accept ho
  refine ⟨?_, ?_, ?_, ?_, ?_, ?_, ?_⟩
  · intro o ho
    rw [hminted]
    obtain hold | ⟨rfl, _⟩ := hmem o ho
    · exact hI.minted o hold
    · exact (hI.sending _ hflight).1
  · intro o ho o' ho' hsame
    obtain hold | ⟨hid, hnone, heq⟩ := hmem o ho
    · obtain hold' | ⟨hid', hnone', _⟩ := hmem o' ho'
      · exact hI.single o hold o' hold' hsame
      · exact absurd ⟨o, hold, hsame.trans hid'⟩ hnone'
    · rw [heq] at ho'
      rcases List.mem_append.mp ho' with hold' | hnew
      · exact absurd ⟨o', hold', hsame.symm.trans hid⟩ hnone
      · rw [List.mem_singleton.mp hnew]
  · rw [hsending, hminted, horders]
    exact hI.sending
  · rw [horders]
    exact hI.pending
  · intro o ho
    rw [horders, hsending]
    obtain hold | ⟨rfl, _⟩ := hmem o ho
    · exact hI.known o hold
    · exact .inr (.inr hflight)
  · rintro row hrow hlost ⟨o, ho, hid⟩
    rw [horders] at hrow
    rw [hsending]
    obtain hold | ⟨rfl, _⟩ := hmem o ho
    · exact hI.givenUp row hrow hlost ⟨o, hold, hid⟩
    · exact hid ▸ hflight
  · rw [hrecovery]
    cases hphase : s.recovery with
    | waiting => trivial
    | ended summary => trivial
    | listing items todo remote =>
      rw [hphase] at hidle
      exact hidle.elim
    | committing items remote summary =>
      rw [hphase] at hidle
      exact hidle.elim

theorem RestartInvariant.serverMove (hI : RestartInvariant s) {orderId : String}
    {status : ServerStatus} (hserver : s'.server = s.server.map (fun o =>
      if o.orderId = orderId ∧ o.status = .resting then { o with status := status } else o))
    (hservice : s'.service = s.service) (hrecovery : s'.recovery = s.recovery) :
    RestartInvariant s' := by
  have hmem : ∀ o' ∈ s'.server, ∃ o ∈ s.server, o.Same o' ∧
      (o.status = o'.status ∨ o.status = .resting) := by
    intro o' ho'
    rw [hserver] at ho'
    obtain ⟨o, ho, rfl⟩ := List.mem_map.mp ho'
    refine ⟨o, ho, ?_⟩
    split_ifs with hmoves
    · exact ⟨⟨rfl, rfl⟩, .inr hmoves.2⟩
    · exact ⟨⟨rfl, rfl⟩, .inl rfl⟩
  have hmem' : ∀ o ∈ s.server, ∃ o' ∈ s'.server, o.Same o' := by
    intro o ho
    refine ⟨_, hserver ▸ List.mem_map.mpr ⟨o, ho, rfl⟩, ?_⟩
    split_ifs <;> exact ⟨rfl, rfl⟩
  have hdb : s'.db = s.db := by rw [Restarting.db, hservice, Restarting.db]
  have hholds : ∀ id, s'.Holds id → s.Holds id := by
    rintro id ⟨o', ho', rfl⟩
    obtain ⟨o, ho, ⟨_, hid⟩, _⟩ := hmem o' ho'
    exact ⟨o, ho, hid⟩
  have hcarried : ∀ o ∈ s.server, Carried s.db.orders o → Carried s'.db.orders o :=
    fun o _ h => hdb ▸ h
  refine ⟨?_, ?_, ?_, ?_, ?_, ?_, ?_⟩
  · intro o' ho'
    obtain ⟨o, ho, ⟨_, hid⟩, _⟩ := hmem o' ho'
    rw [hservice, ← hid]
    exact hI.minted o ho
  · intro o ho o' ho' hsame
    obtain ⟨o₀, ho₀, ⟨horder, hid⟩, _⟩ := hmem o ho
    obtain ⟨o₀', ho₀', ⟨horder', hid'⟩, _⟩ := hmem o' ho'
    rw [← horder, ← horder']
    exact hI.single o₀ ho₀ o₀' ho₀' (hid.trans (hsame.trans hid'.symm))
  · rw [hservice, hdb]
    exact hI.sending
  · rw [hdb]
    exact hI.pending
  · intro o' ho'
    obtain ⟨o, ho, hsame, _⟩ := hmem o' ho'
    rw [hservice, ← hsame.2]
    exact (hI.known o ho).imp (fun h => (hcarried o ho h).same hsame) (fun h => hdb ▸ h)
  · intro row hrow hlost h
    rw [hdb] at hrow
    rw [hservice]
    exact hI.givenUp row hrow hlost (hholds _ h)
  · rw [hrecovery]
    exact hI.recovering.moves hmem hmem' hcarried (fun _ _ h => hservice ▸ h)

theorem RestartInvariant.mark (hI : RestartInvariant s) {f : Order → Order}
    (hserver : s'.server = s.server) (hrecovery : s'.recovery = s.recovery)
    (horders : s'.db.orders = s.db.orders.map f)
    (hminted : s'.service.minted = s.service.minted)
    (hsending : s'.service.sending = s.service.sending)
    (hkeys : ∀ row, (f row).clientOrderId = row.clientOrderId ∧
      (f row).kalshiOrderId = row.kalshiOrderId)
    (hstatus : ∀ row, (f row).status = row.status ∨
      (f row).status ∉ ["pending", "lost", "send_failed"])
    (hknown : ∀ o ∈ s.server, Carried s.db.orders o ∨
      (∃ row ∈ s.db.orders, row.clientOrderId = o.clientOrderId ∧ (f row).status = "pending") ∨
        s.service.sending = some o.clientOrderId) : RestartInvariant s' := by
  have hcarried : ∀ o, Carried s.db.orders o → Carried s'.db.orders o := by
    rintro o ⟨row, hrow, hid, hkid⟩
    exact ⟨f row, horders ▸ List.mem_map_of_mem hrow, (hkeys row).1.trans hid,
      (hkeys row).2.trans hkid⟩
  have hmem : ∀ row' ∈ s'.db.orders, ∃ row ∈ s.db.orders, f row = row' :=
    fun row' hrow' => List.mem_map.mp (horders ▸ hrow')
  refine ⟨?_, ?_, ?_, ?_, ?_, ?_, ?_⟩
  · rw [hserver, hminted]
    exact hI.minted
  · rw [hserver]
    exact hI.single
  · intro id hid
    rw [hsending] at hid
    obtain ⟨hmint, row, hrow, hrowId⟩ := hI.sending id hid
    exact ⟨hminted ▸ hmint, f row, horders ▸ List.mem_map_of_mem hrow, (hkeys row).1.trans hrowId⟩
  · intro row' hrow' hpending
    obtain ⟨row, hrow, rfl⟩ := hmem row' hrow'
    obtain hsame | hnever := hstatus row
    · exact (hkeys row).2.trans (hI.pending row hrow (hsame.symm.trans hpending))
    · exact absurd (hpending ▸ List.mem_cons_self) hnever
  · rw [hserver, hsending]
    intro o ho
    obtain hc | ⟨row, hrow, hid, hpending⟩ | hflight := hknown o ho
    · exact .inl (hcarried o hc)
    · exact .inr (.inl ⟨f row, horders ▸ List.mem_map_of_mem hrow, (hkeys row).1.trans hid,
        hpending⟩)
    · exact .inr (.inr hflight)
  · intro row' hrow' hlost hholds
    obtain ⟨row, hrow, rfl⟩ := hmem row' hrow'
    rw [Restarting.Holds, hserver, (hkeys row).1] at hholds
    rw [hsending, (hkeys row).1]
    obtain hsame | hnever := hstatus row
    · exact hI.givenUp row hrow (hsame ▸ hlost) hholds
    · obtain h | h := hlost <;> rw [h] at hnever <;> exact absurd (by simp) hnever
  · rw [hrecovery]
    exact hI.recovering.mono hserver (fun o _ => hcarried o) (fun _ _ h => hsending ▸ h)

theorem RestartInvariant.scan (hI : RestartInvariant s) (hsending : s.service.sending = none) :
    RestartInvariant { s with recovery := .start s.db } := by
  refine ⟨hI.minted, hI.single, hI.sending, hI.pending, hI.known, hI.givenUp, ?_, ?_, ?_, ?_, ?_⟩
  · refine ⟨fun o ho h => absurd (hsending.symm.trans h) (Option.some_ne_none _).symm, ?_⟩
    intro o ho
    obtain hcarried | ⟨row, hrow, hid, hpending⟩ | hflight := hI.known o ho
    · exact .inl hcarried
    · refine .inr ⟨⟨row.clientOrderId, row.kalshiOrderId⟩, ?_, hid⟩
      exact List.mem_map.mpr ⟨row, List.mem_filter.mpr ⟨hrow, decide_eq_true hpending⟩, rfl⟩
    · exact absurd (hsending.symm.trans hflight) (Option.some_ne_none _).symm
  · intro o _
    right
    cases o.status <;> decide
  · exact fun r hr => absurd hr List.not_mem_nil
  · rintro - status
    cases status <;> decide
  · decide

theorem RestartInvariant.listed (hI : RestartInvariant s) {items : List InFlight}
    {status : ServerStatus} {todo : List ServerStatus} {remote page : List ServerOrder}
    (hphase : s.recovery = .listing items (status :: todo) remote)
    (hagrees : s.agrees page status = true)
    (hcomplete : ∀ o ∈ s.server, o.status = status → o ∈ page) :
    RestartInvariant { s with recovery := .listed items (status :: todo) remote page } := by
  have hrecovering := hI.recovering
  rw [hphase] at hrecovering
  obtain ⟨⟨hidle, hfound⟩, hlisted, hremote, _, htodo⟩ := hrecovering
  have hlisted' : ∀ o ∈ s.server, (∃ r ∈ remote ++ page, r.Same o) ∨ o.status ∈ todo := by
    intro o ho
    obtain ⟨r, hr, hsame⟩ | hin := hlisted o ho
    · exact .inl ⟨r, List.mem_append_left _ hr, hsame⟩
    · obtain hnow | hlater := List.mem_cons.mp hin
      · exact .inl ⟨o, List.mem_append_right _ (hcomplete o ho hnow), rfl, rfl⟩
      · exact .inr hlater
  have hremote' : ∀ r ∈ remote ++ page, ∃ o ∈ s.server, r.Same o := by
    intro r hr
    rcases List.mem_append.mp hr with hold | hnew
    · exact hremote r hold
    · have hheld := List.all_eq_true.mp hagrees r hnew
      simp only [decide_eq_true_eq] at hheld
      exact ⟨r, hheld.1, rfl, rfl⟩
  refine ⟨hI.minted, hI.single, hI.sending, hI.pending, hI.known, hI.givenUp, ?_⟩
  unfold Recovery.listed
  simp only [List.tail_cons]
  cases todo with
  | nil =>
    refine ⟨⟨hidle, hfound⟩, fun o ho => ?_, hremote'⟩
    exact (hlisted' o ho).resolve_right List.not_mem_nil
  | cons next todo =>
    exact ⟨⟨hidle, hfound⟩, hlisted', hremote', fun h => absurd h htodo,
      fun h => htodo (List.mem_cons_of_mem next h)⟩

theorem RestartInvariant.commit (hI : RestartInvariant s) {item : InFlight} {items : List InFlight}
    {remote : List ServerOrder} {summary summary' : RecoverySummary} {agent : Agent}
    (hphase : s.recovery = .committing (item :: items) remote summary)
    (hagent : recoverOrder s.service.agent remote summary item = (agent, summary')) :
    RestartInvariant { s.setAgent agent with recovery := .committing items remote summary' } := by
  have hrecovering := hI.recovering
  rw [hphase] at hrecovering
  obtain ⟨⟨hidle, hfound⟩, hlisted, hremote⟩ := hrecovering
  obtain ⟨change, horders, hchange, hmatch⟩ :=
    recoverOrder_orders s.service.agent remote summary item
  rw [hagent] at horders
  -- an order of the item's id is on the list, so the item is matched with it
  have hnow : ∀ o ∈ s.server, o.clientOrderId = item.clientOrderId →
      ∀ row, (change row).kalshiOrderId = some o.orderId ∧ ∃ status : ServerStatus,
        (change row).status = status.text := by
    intro o ho hid row
    obtain ⟨r, hr, _, hrId⟩ := hlisted o ho
    obtain ⟨r', hr', hr'Id, hfind⟩ := mem_matchRemote hr (hrId.trans hid)
    obtain ⟨r'', hfind'', hrow⟩ | ⟨hnone, _⟩ := hmatch
    · cases hfind.symm.trans hfind''
      obtain ⟨o', ho', horder, hid'⟩ := hremote r' hr'
      have hsame := hI.single o' ho' o ho (hid'.symm.trans (hr'Id.trans hid.symm))
      exact ⟨(hrow row).1.trans (congrArg some (horder.trans hsame)), _, (hrow row).2⟩
    · exact absurd (hfind.symm.trans hnone) (Option.some_ne_none r')
  have hcarried : ∀ o ∈ s.server, Carried s.db.orders o → Carried agent.db.orders o := by
    intro o ho h
    by_cases hid : o.clientOrderId = item.clientOrderId
    · obtain ⟨row, hrow, hrowId, _⟩ := h
      refine ⟨change row, horders ▸ mem_updateOrder.mpr ⟨row, hrow, .inl ⟨hrowId.trans hid, rfl⟩⟩,
        (hchange row).1.trans hrowId, (hnow o ho hid row).1⟩
    · exact horders ▸ carried_updateOrder hid h
  have hitem : ∀ o ∈ s.server, o.clientOrderId = item.clientOrderId → Carried agent.db.orders o := by
    intro o ho hid
    obtain h | ⟨row, hrow, hrowId, _⟩ | hflight := hI.known o ho
    · exact hcarried o ho h
    · refine ⟨change row, horders ▸ mem_updateOrder.mpr ⟨row, hrow, .inl ⟨hrowId.trans hid, rfl⟩⟩,
        (hchange row).1.trans hrowId, (hnow o ho hid row).1⟩
    · exact absurd hflight (hidle o ho)
  refine ⟨hI.minted, hI.single, ?_, ?_, ?_, ?_, ⟨hidle, ?_⟩, hlisted, hremote⟩
  · intro id hid
    obtain ⟨hmint, row, hrow, hrowId⟩ := hI.sending id hid
    refine ⟨hmint, ?_⟩
    by_cases heq : row.clientOrderId = item.clientOrderId
    · exact ⟨change row, horders ▸ mem_updateOrder.mpr ⟨row, hrow, .inl ⟨heq, rfl⟩⟩,
        (hchange row).1.trans hrowId⟩
    · exact ⟨row, horders ▸ mem_updateOrder.mpr ⟨row, hrow, .inr ⟨heq, rfl⟩⟩, hrowId⟩
  · intro row' hrow' hpending
    obtain ⟨row, hrow, ⟨_, rfl⟩ | ⟨_, rfl⟩⟩ := mem_updateOrder.mp (horders ▸ hrow')
    · exact absurd hpending (hchange row).2
    · exact hI.pending row hrow hpending
  · intro o ho
    by_cases hid : o.clientOrderId = item.clientOrderId
    · exact .inl (hitem o ho hid)
    obtain h | hpend | hflight := hI.known o ho
    · exact .inl (hcarried o ho h)
    · exact .inr (.inl (horders ▸ pendingRow_updateOrder hid hpend))
    · exact absurd hflight (hidle o ho)
  · intro row' hrow' hlost hholds
    obtain ⟨row, hrow, ⟨hid, rfl⟩ | ⟨hid, rfl⟩⟩ := mem_updateOrder.mp (horders ▸ hrow')
    · obtain ⟨o, ho, hoId⟩ := hholds
      obtain ⟨_, status, hstatus⟩ := hnow o ho (hoId.trans ((hchange row).1.trans hid)) row
      rw [hstatus] at hlost
      cases status <;> exact absurd hlost (by decide)
    · exact hI.givenUp row hrow hlost hholds
  · intro o ho
    obtain h | ⟨item', hitem', hid⟩ := hfound o ho
    · exact .inl (hcarried o ho h)
    · rcases List.mem_cons.mp hitem' with rfl | hlater
      · exact .inl (hitem o ho hid.symm)
      · exact .inr ⟨item', hlater, hid⟩

end Invariant

end KalshiAgent

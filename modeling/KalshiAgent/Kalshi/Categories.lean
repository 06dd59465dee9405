import KalshiAgent.Kalshi.Client
import KalshiAgent.Lib.Execution
import KalshiAgent.Lib.Text
import Mathlib.Data.Finset.Insert
import Mathlib.Data.List.Forall2
import Mathlib.Logic.Function.Basic

/-! The categories that the client gives to markets from their events, with its cache of them. Calls
that wait for an event go on in any order. -/

namespace KalshiAgent
open Execution

structure EventMarket where
  ticker : Ticker
  eventTicker : Option String
  category : Option String
  deriving DecidableEq

/-- A category or a failure by event ticker, with the reading of `time.monotonic` it lasts to. -/
abbrev CategoryCache := String → Option (Option String × ℚ)

def categoryTtl : ℚ := 3600

def CategoryCache.hit (cache : CategoryCache) (now : ℚ) (event : String) : Option (Option String) :=
  match cache event with
  | none => none
  | some (category, expiry) => if now < expiry then some category else none

namespace EventMarket

def event (m : EventMarket) : Option String := if given m.eventTicker then m.eventTicker else none

def lacking (m : EventMarket) : Option String := if given m.category then none else m.event

end EventMarket

def scanCategories (cache : CategoryCache) (now : ℚ) :
    List EventMarket → List EventMarket × Finset String
  | [] => ([], ∅)
  | m :: rest =>
    let (scanned, needed) := scanCategories cache now rest
    match m.lacking with
    | none => (m :: scanned, needed)
    | some event =>
      match cache.hit now event with
      | some category => ({ m with category } :: scanned, needed)
      | none => (m :: scanned, insert event needed)

def assignCategory (event : String) (category : Option String) (markets : List EventMarket) :
    List EventMarket :=
  markets.map fun m =>
    if m.eventTicker = some event ∧ !given m.category then { m with category } else m

inductive MarketsFetch
  | listMarkets (reply : Except ClientError (List EventMarket))
  | getMarket (reply : Except ClientError EventMarket)

def MarketsFetch.markets : MarketsFetch → Except ClientError (List EventMarket)
  | .listMarkets reply => reply
  | .getMarket reply => reply.map fun m => [m]

/-- A call, with the clock as `_enrich_categories` reads it, the order in which the set of events is
gone through, and the lookups that fail while the call lasts. -/
structure MarketsCall where
  fetch : MarketsFetch
  now : ℚ
  order : List String
  failures : String → Option ClientError

structure Enrichment where
  call : MarketsCall
  fetched : List EventMarket
  cacheBefore : CategoryCache

structure Enriching extends Enrichment where
  markets : List EventMarket
  pending : List String

structure Enriched extends Enrichment where
  outcome : Except ClientError (List EventMarket)

structure CategoryState where
  cache : CategoryCache
  enriching : List Enriching
  returned : List Enriched

def CategoryState.start : CategoryState := ⟨fun _ => none, [], []⟩

/-- A call that has its markets begins to enrich them; the `i`-th enrichment under way takes its next
round, or returns. -/
inductive CategoryStep
  | call (c : MarketsCall)
  | resume (i : ℕ)

section Client
variable (categoryOf : String → Option String)

def getEvent (failures : String → Option ClientError) (event : String) :
    Except ClientError (Option String) :=
  match failures event with
  | none => .ok (categoryOf event)
  | some e => .error e

/-- A round's lookup, which is guarded against a `KalshiAPIError` alone. -/
def lookUpCategory (failures : String → Option ClientError) (event : String) :
    Except ClientError (Option String) :=
  match getEvent categoryOf failures event with
  | .ok category => .ok category
  | .error (.api _ _) => .ok none
  | .error e => .error e

def categoryStep (s : CategoryState) : CategoryStep → Option CategoryState
  | .call c =>
    match c.fetch.markets with
    | .error _ => some s
    | .ok fetched =>
      let (scanned, needed) := scanCategories s.cache c.now fetched
      if c.order.Nodup ∧ c.order.toFinset = needed then
        some { s with enriching := s.enriching ++ [⟨⟨c, fetched, s.cache⟩, scanned, c.order⟩] }
      else none
  | .resume i =>
    match s.enriching[i]? with
    | none => none
    | some e =>
      match e.pending with
      | [] =>
        some { s with
          enriching := s.enriching.eraseIdx i
          returned := ⟨e.toEnrichment, .ok e.markets⟩ :: s.returned }
      | event :: rest =>
        match lookUpCategory categoryOf e.call.failures event with
        | .error err =>
          some { s with
            enriching := s.enriching.eraseIdx i
            returned := ⟨e.toEnrichment, .error err⟩ :: s.returned }
        | .ok category =>
          some { s with
            cache := Function.update s.cache event (some (category, e.call.now + categoryTtl))
            enriching := s.enriching.set i
              { e with markets := assignCategory event category e.markets, pending := rest } }

/-- The market's own category if it has one, and otherwise its event's. -/
def EventMarket.withoutCache (m : EventMarket) (event : String) : EventMarket :=
  { m with category := if given m.category then m.category else categoryOf event }

/-- The call does not fail, and the markets of an event whose lookup would succeed are as they were
without the cache. -/
def Enriched.Transparent (r : Enriched) : Prop :=
  ∃ markets, r.outcome = .ok markets ∧
    List.Forall₂ (fun before after => ∀ event, before.event = some event →
      r.call.failures event = none → after = before.withoutCache categoryOf event)
      r.fetched markets

def CategoryKnown : Option ClientError → Prop
  | none => True
  | some (.api _ _) => True
  | some _ => False

/-- The condition: every lookup that the call makes succeeds or ends with a `KalshiAPIError`, and no
failure is cached for an event that has a category and could be looked up again. -/
structure Enrichment.Clean (r : Enrichment) : Prop where
  known : ∀ event ∈ (scanCategories r.cacheBefore r.call.now r.fetched).2,
    CategoryKnown (r.call.failures event)
  unfailed : ∀ m ∈ r.fetched, ∀ event, m.lacking = some event → r.call.failures event = none →
    r.cacheBefore.hit r.call.now event = some none → categoryOf event = none

def found (failures : String → Option ClientError) (event : String) : Option String :=
  match failures event with
  | none => categoryOf event
  | some _ => none

/-- The market once the cache and the lookups of the events in `done` have been gone through. -/
def Enrichment.filled (r : Enrichment) (done : List String) (m : EventMarket) : EventMarket :=
  match m.lacking with
  | none => m
  | some event =>
    match r.cacheBefore.hit r.call.now event with
    | some category => { m with category }
    | none =>
      if event ∈ done then { m with category := found categoryOf r.call.failures event } else m

/-- The cache holds the categories of events and failures. -/
def CategoryCache.Sound (cache : CategoryCache) : Prop :=
  ∀ event category expiry, cache event = some (category, expiry) →
    category = categoryOf event ∨ category = none

structure Enriching.Progressed (e : Enriching) (done : List String) : Prop where
  sound : e.cacheBefore.Sound categoryOf
  nodup : (done ++ e.pending).Nodup
  needed : ∀ event, event ∈ done ++ e.pending ↔
    event ∈ (scanCategories e.cacheBefore e.call.now e.fetched).2
  known : ∀ event ∈ done, CategoryKnown (e.call.failures event)
  markets : e.markets = e.fetched.map (e.filled categoryOf done)

structure CategoryState.Invariant (s : CategoryState) : Prop where
  sound : s.cache.Sound categoryOf
  enriching : ∀ e ∈ s.enriching, ∃ done, e.Progressed categoryOf done
  returned : ∀ r ∈ s.returned, (r.Transparent categoryOf ↔ r.Clean categoryOf)

end Client

theorem EventMarket.lacking_eq_some {m : EventMarket} {event : String} :
    m.lacking = some event ↔ given m.category = false ∧ m.event = some event := by
  unfold lacking
  cases given m.category with
  | true => exact iff_of_false nofun (fun h => Bool.false_ne_true h.1.symm)
  | false => exact (and_iff_right rfl).symm

theorem EventMarket.event_eq_some {m : EventMarket} {event : String} (h : m.event = some event) :
    m.eventTicker = some event ∧ given (some event) = true := by
  unfold EventMarket.event at h
  split_ifs at h with hgiven
  exact ⟨h, h ▸ hgiven⟩

theorem EventMarket.lacking_of_eventTicker {m : EventMarket} {event : String}
    (hgiven : given (some event) = true)
    (h : m.eventTicker = some event ∧ (!given m.category) = true) : m.lacking = some event := by
  apply EventMarket.lacking_eq_some.mpr
  refine ⟨Bool.not_eq_true' _ ▸ h.2, ?_⟩
  unfold EventMarket.event
  rw [h.1, if_pos hgiven]

theorem mem_needed {cache : CategoryCache} {now : ℚ} {event : String} (markets : List EventMarket) :
    event ∈ (scanCategories cache now markets).2 ↔
      ∃ m ∈ markets, m.lacking = some event ∧ cache.hit now event = none := by
  induction markets with
  | nil => exact iff_of_false (Finset.notMem_empty event) nofun
  | cons m rest ih =>
    unfold scanCategories
    rw [List.exists_mem_cons_iff, ← ih]
    cases hlacking : m.lacking with
    | none =>
      refine (or_iff_right ?_).symm
      exact fun h => Option.some_ne_none event h.1.symm
    | some asked =>
      dsimp only
      cases hhit : cache.hit now asked with
      | some category =>
        refine (or_iff_right ?_).symm
        rintro ⟨⟨⟩, hnone⟩
        exact Option.some_ne_none category (hhit.symm.trans hnone)
      | none =>
        rw [Finset.mem_insert]
        apply or_congr_left
        constructor
        · rintro rfl
          exact ⟨rfl, hhit⟩
        · rintro ⟨⟨⟩, _⟩
          rfl

section Rounds
variable {categoryOf : String → Option String}

theorem CategoryCache.Sound.of_hit {cache : CategoryCache} {now : ℚ} {event : String}
    {category : Option String} (h : cache.Sound categoryOf)
    (hhit : cache.hit now event = some category) :
    category = categoryOf event ∨ category = none := by
  unfold CategoryCache.hit at hhit
  cases hentry : cache event with
  | none =>
    rw [hentry] at hhit
    cases hhit
  | some entry =>
    rw [hentry] at hhit
    dsimp only at hhit
    split_ifs at hhit
    cases hhit
    exact h event entry.1 entry.2 hentry

theorem found_eq_or (failures : String → Option ClientError) (event : String) :
    found categoryOf failures event = categoryOf event ∨
      found categoryOf failures event = none := by
  unfold found
  cases failures event with
  | none => exact .inl rfl
  | some e => exact .inr rfl

theorem CategoryCache.Sound.update {cache : CategoryCache} {event : String}
    {category : Option String} {expiry : ℚ} (h : cache.Sound categoryOf)
    (hcategory : category = categoryOf event ∨ category = none) :
    Sound categoryOf (Function.update cache event (some (category, expiry))) := by
  intro asked held until' hentry
  by_cases hsame : asked = event
  · subst hsame
    rw [Function.update_self] at hentry
    cases hentry
    exact hcategory
  · rw [Function.update_of_ne hsame] at hentry
    exact h asked held until' hentry

section Filled
variable {r : Enrichment} {done : List String} {m : EventMarket} {event : String}

theorem filled_of_complete (h : m.lacking = none) : r.filled categoryOf done m = m := by
  unfold Enrichment.filled
  rw [h]

theorem filled_of_hit {category : Option String} (h : m.lacking = some event)
    (hhit : r.cacheBefore.hit r.call.now event = some category) :
    r.filled categoryOf done m = { m with category } := by
  unfold Enrichment.filled
  rw [h]
  dsimp only
  rw [hhit]

theorem filled_of_miss (h : m.lacking = some event)
    (hmiss : r.cacheBefore.hit r.call.now event = none) :
    r.filled categoryOf done m =
      if event ∈ done then { m with category := found categoryOf r.call.failures event } else m := by
  unfold Enrichment.filled
  rw [h]
  dsimp only
  rw [hmiss]

end Filled

theorem scanCategories_eq_filled (r : Enrichment) (markets : List EventMarket) :
    (scanCategories r.cacheBefore r.call.now markets).1 =
      markets.map (r.filled categoryOf []) := by
  induction markets with
  | nil => rfl
  | cons m rest ih =>
    unfold scanCategories
    rw [List.map_cons, ← ih]
    unfold Enrichment.filled
    cases m.lacking with
    | none => rfl
    | some event =>
      dsimp only
      cases r.cacheBefore.hit r.call.now event with
      | some category => rfl
      | none =>
        rw [if_neg List.not_mem_nil]

theorem lookUpCategory_of_known {failures : String → Option ClientError} {event : String}
    (h : CategoryKnown (failures event)) :
    lookUpCategory categoryOf failures event = .ok (found categoryOf failures event) := by
  unfold lookUpCategory getEvent found
  cases hfailure : failures event with
  | none => rfl
  | some e =>
    rw [hfailure] at h
    cases e with
    | api statusCode body => rfl
    | auth message => exact h.elim
    | other message => exact h.elim

theorem lookUpCategory_of_not_known {failures : String → Option ClientError} {event : String}
    (h : ¬ CategoryKnown (failures event)) :
    ∃ e, lookUpCategory categoryOf failures event = .error e := by
  unfold lookUpCategory getEvent
  cases hfailure : failures event with
  | none => exact (h (hfailure ▸ trivial)).elim
  | some e =>
    cases e with
    | api statusCode body => exact (h (hfailure ▸ trivial)).elim
    | auth message => exact ⟨_, rfl⟩
    | other message => exact ⟨_, rfl⟩

theorem assignCategory_filled {r : Enrichment} {done : List String} {event : String}
    (hmiss : r.cacheBefore.hit r.call.now event = none) (hfresh : event ∉ done)
    (hevent : given (some event) = true) (markets : List EventMarket) :
    assignCategory event (found categoryOf r.call.failures event)
        (markets.map (r.filled categoryOf done)) =
      markets.map (r.filled categoryOf (done ++ [event])) := by
  unfold assignCategory
  rw [List.map_map]
  apply List.map_congr_left
  intro m _
  rw [Function.comp_apply]
  cases hlacking : m.lacking with
  | none =>
    rw [filled_of_complete hlacking, filled_of_complete hlacking]
    apply if_neg
    intro h
    exact Option.some_ne_none event
      ((EventMarket.lacking_of_eventTicker hevent h).symm.trans hlacking)
  | some asked =>
    obtain ⟨hblank, hasked⟩ := EventMarket.lacking_eq_some.mp hlacking
    obtain ⟨hticker, _⟩ := EventMarket.event_eq_some hasked
    by_cases hsame : asked = event
    · subst hsame
      have hnext : asked ∈ done ++ [asked] :=
        List.mem_append_right done (List.mem_singleton_self asked)
      rw [filled_of_miss hlacking hmiss, filled_of_miss hlacking hmiss, if_neg hfresh, if_pos hnext,
        if_pos ⟨hticker, hblank ▸ rfl⟩]
    · have hother : m.eventTicker ≠ some event :=
        fun h => hsame (Option.some.inj (hticker.symm.trans h))
      cases hhit : r.cacheBefore.hit r.call.now asked with
      | some category =>
        rw [filled_of_hit hlacking hhit, filled_of_hit hlacking hhit]
        exact if_neg fun h => hother h.1
      | none =>
        have hmem : asked ∈ done ++ [event] ↔ asked ∈ done := by
          rw [List.mem_append, List.mem_singleton]
          exact or_iff_left hsame
        rw [filled_of_miss hlacking hhit, filled_of_miss hlacking hhit]
        by_cases hdone : asked ∈ done
        · rw [if_pos hdone, if_pos (hmem.mpr hdone)]
          exact if_neg fun h => hother h.1
        · rw [if_neg hdone, if_neg (mt hmem.mp hdone)]
          exact if_neg fun h => hother h.1

theorem filled_eq_withoutCache_iff {r : Enrichment} {done : List String} {m : EventMarket}
    (hsound : r.cacheBefore.Sound categoryOf)
    (hdone : ∀ event, m.lacking = some event → r.cacheBefore.hit r.call.now event = none →
      event ∈ done) :
    (∀ event, m.event = some event → r.call.failures event = none →
        r.filled categoryOf done m = m.withoutCache categoryOf event) ↔
      ∀ event, m.lacking = some event → r.call.failures event = none →
        r.cacheBefore.hit r.call.now event = some none → categoryOf event = none := by
  unfold EventMarket.withoutCache
  constructor
  · intro h event hlacking hsucceeds hhit
    obtain ⟨hblank, hevent⟩ := EventMarket.lacking_eq_some.mp hlacking
    have hsame := h event hevent hsucceeds
    rw [filled_of_hit hlacking hhit, hblank] at hsame
    exact (congrArg EventMarket.category hsame).symm
  · intro h event hevent hsucceeds
    cases hcategory : given m.category with
    | true =>
      have hcomplete : m.lacking = none := by
        rw [EventMarket.lacking, hcategory, if_pos rfl]
      exact filled_of_complete hcomplete
    | false =>
      have hlacking := EventMarket.lacking_eq_some.mpr ⟨hcategory, hevent⟩
      rw [if_neg Bool.false_ne_true]
      cases hhit : r.cacheBefore.hit r.call.now event with
      | none =>
        rw [filled_of_miss hlacking hhit, if_pos (hdone event hlacking hhit), found, hsucceeds]
      | some category =>
        rw [filled_of_hit hlacking hhit]
        rcases hsound.of_hit hhit with rfl | rfl
        · rfl
        · rw [h event hlacking hsucceeds hhit]

theorem Enriching.Progressed.returns {e : Enriching} {done : List String}
    (h : e.Progressed categoryOf done) (hpending : e.pending = []) :
    (⟨e.toEnrichment, .ok e.markets⟩ : Enriched).Transparent categoryOf ↔ e.Clean categoryOf := by
  have hneeded : ∀ event, event ∈ (scanCategories e.cacheBefore e.call.now e.fetched).2 →
      event ∈ done := by
    intro event hevent
    have hmem := (h.needed event).mpr hevent
    rwa [hpending, List.append_nil] at hmem
  have hpoint := fun m (hm : m ∈ e.fetched) =>
    filled_eq_withoutCache_iff (m := m) h.sound fun event hlacking hmiss =>
      hneeded event ((mem_needed e.fetched).mpr ⟨m, hm, hlacking, hmiss⟩)
  constructor
  · rintro ⟨markets, hok, hall⟩
    cases hok
    rw [h.markets, List.forall₂_map_right_iff, List.forall₂_same] at hall
    constructor
    · intro event hevent
      exact h.known event (hneeded event hevent)
    · intro m hm
      exact (hpoint m hm).mp (hall m hm)
  · intro hclean
    refine ⟨e.markets, rfl, ?_⟩
    rw [h.markets, List.forall₂_map_right_iff, List.forall₂_same]
    intro m hm
    exact (hpoint m hm).mpr (hclean.unfailed m hm)

theorem Enriching.Progressed.raises {e : Enriching} {done rest : List String} {event : String}
    {err : ClientError} (h : e.Progressed categoryOf done) (hpending : e.pending = event :: rest)
    (hraises : lookUpCategory categoryOf e.call.failures event = .error err) :
    (⟨e.toEnrichment, .error err⟩ : Enriched).Transparent categoryOf ↔ e.Clean categoryOf := by
  have hmem : event ∈ done ++ e.pending :=
    List.mem_append_right done (hpending ▸ List.mem_cons_self)
  refine iff_of_false ?_ (fun hclean => ?_)
  · rintro ⟨markets, hok, _⟩
    cases hok
  · have hknown := hclean.known event ((h.needed event).mp hmem)
    rw [lookUpCategory_of_known hknown] at hraises
    cases hraises

theorem Enriching.Progressed.round {e : Enriching} {done rest : List String} {event : String}
    (h : e.Progressed categoryOf done) (hpending : e.pending = event :: rest)
    (hknown : CategoryKnown (e.call.failures event)) :
    Progressed categoryOf { e with
      markets := assignCategory event (found categoryOf e.call.failures event) e.markets
      pending := rest } (done ++ [event]) := by
  have hsplit : done ++ [event] ++ rest = done ++ e.pending := by
    rw [hpending, List.append_assoc, List.singleton_append]
  have hmem : event ∈ (scanCategories e.cacheBefore e.call.now e.fetched).2 :=
    (h.needed event).mp (List.mem_append_right done (hpending ▸ List.mem_cons_self))
  obtain ⟨m, _, hlacking, hmiss⟩ := (mem_needed e.fetched).mp hmem
  have hfresh : event ∉ done := by
    have hdisjoint := (List.nodup_append.mp h.nodup).2.2
    intro hdone
    exact hdisjoint event hdone event (hpending ▸ List.mem_cons_self) rfl
  refine ⟨h.sound, ?_, ?_, ?_, ?_⟩
  · exact hsplit ▸ h.nodup
  · exact hsplit ▸ h.needed
  · intro asked hasked
    rcases List.mem_append.mp hasked with hdone | hlast
    · exact h.known asked hdone
    · exact List.mem_singleton.mp hlast ▸ hknown
  · show assignCategory _ _ e.markets = _
    rw [h.markets]
    have hgiven := (EventMarket.event_eq_some (EventMarket.lacking_eq_some.mp hlacking).2).2
    exact assignCategory_filled hmiss hfresh hgiven e.fetched

theorem categoryStep_cases {s s' : CategoryState} {l : CategoryStep}
    (h : categoryStep categoryOf s l = some s') :
    s' = s ∨
      (∃ c fetched, c.order.Nodup ∧ c.order.toFinset = (scanCategories s.cache c.now fetched).2 ∧
        s' = { s with
          enriching := s.enriching ++
            [⟨⟨c, fetched, s.cache⟩, (scanCategories s.cache c.now fetched).1, c.order⟩] }) ∨
      ∃ i, ∃ e ∈ s.enriching,
        (e.pending = [] ∧ s' = { s with
          enriching := s.enriching.eraseIdx i
          returned := ⟨e.toEnrichment, .ok e.markets⟩ :: s.returned }) ∨
        ∃ event rest, e.pending = event :: rest ∧
          ((∃ err, lookUpCategory categoryOf e.call.failures event = .error err ∧ s' = { s with
              enriching := s.enriching.eraseIdx i
              returned := ⟨e.toEnrichment, .error err⟩ :: s.returned }) ∨
            CategoryKnown (e.call.failures event) ∧ s' = { s with
              cache := Function.update s.cache event
                (some (found categoryOf e.call.failures event, e.call.now + categoryTtl))
              enriching := s.enriching.set i { e with
                markets := assignCategory event (found categoryOf e.call.failures event) e.markets
                pending := rest } }) := by
  cases l with
  | call c =>
    unfold categoryStep at h
    dsimp only at h
    cases hfetch : c.fetch.markets with
    | error e =>
      rw [hfetch] at h
      exact .inl (Option.some.inj h).symm
    | ok fetched =>
      rw [hfetch] at h
      dsimp only at h
      split_ifs at h with horder
      exact .inr (.inl ⟨c, fetched, horder.1, horder.2, (Option.some.inj h).symm⟩)
  | resume i =>
    unfold categoryStep at h
    dsimp only at h
    cases hget : s.enriching[i]? with
    | none =>
      rw [hget] at h
      cases h
    | some e =>
      rw [hget] at h
      dsimp only at h
      refine .inr (.inr ⟨i, e, List.mem_of_getElem? hget, ?_⟩)
      cases hpending : e.pending with
      | nil =>
        rw [hpending] at h
        exact .inl ⟨rfl, (Option.some.inj h).symm⟩
      | cons event rest =>
        rw [hpending] at h
        dsimp only at h
        refine .inr ⟨event, rest, rfl, ?_⟩
        by_cases hknown : CategoryKnown (e.call.failures event)
        · rw [lookUpCategory_of_known hknown] at h
          exact .inr ⟨hknown, (Option.some.inj h).symm⟩
        · obtain ⟨err, hraises⟩ := @lookUpCategory_of_not_known categoryOf _ event hknown
          rw [hraises] at h
          exact .inl ⟨err, hraises, (Option.some.inj h).symm⟩

theorem CategoryState.Invariant.step {s s' : CategoryState} {l : CategoryStep}
    (hI : s.Invariant categoryOf) (h : categoryStep categoryOf s l = some s') :
    s'.Invariant categoryOf := by
  rcases categoryStep_cases h with rfl | ⟨c, fetched, hnodup, horder, rfl⟩ | ⟨i, e, he, hround⟩
  · exact hI
  · refine ⟨hI.sound, ?_, hI.returned⟩
    intro e he
    rcases List.mem_append.mp he with hold | hnew
    · exact hI.enriching e hold
    · obtain rfl := List.mem_singleton.mp hnew
      refine ⟨[], hI.sound, hnodup, fun event => ?_, nofun, ?_⟩
      · rw [List.nil_append, ← horder, List.mem_toFinset]
      · exact scanCategories_eq_filled ⟨c, fetched, s.cache⟩ fetched
  obtain ⟨done, hprogress⟩ := hI.enriching e he
  rcases hround with ⟨hpending, rfl⟩ | ⟨event, rest, hpending, ⟨err, hraises, rfl⟩ | ⟨hknown, rfl⟩⟩
  · refine ⟨hI.sound, fun e' he' => hI.enriching e' (List.mem_of_mem_eraseIdx he'), ?_⟩
    exact List.forall_mem_cons.mpr ⟨hprogress.returns hpending, hI.returned⟩
  · refine ⟨hI.sound, fun e' he' => hI.enriching e' (List.mem_of_mem_eraseIdx he'), ?_⟩
    exact List.forall_mem_cons.mpr ⟨hprogress.raises hpending hraises, hI.returned⟩
  · refine ⟨?_, fun e' he' => ?_, hI.returned⟩
    · exact hI.sound.update (found_eq_or e.call.failures event)
    · rcases List.mem_or_eq_of_mem_set he' with hold | rfl
      · exact hI.enriching e' hold
      · exact ⟨done ++ [event], hprogress.round hpending hknown⟩

end Rounds

/-- In every run of calls, over any clocks, lookups and interleavings, a call that has returned was
transparent exactly when it was clean. -/
theorem enriched_transparent_iff (categoryOf : String → Option String) (run : List CategoryStep) :
    AllStates (categoryStep categoryOf)
      (fun s => ∀ r ∈ s.returned, (r.Transparent categoryOf ↔ r.Clean categoryOf)) .start run := by
  have hstart : CategoryState.start.Invariant categoryOf := ⟨nofun, nofun, nofun⟩
  exact allStates_of_invariant (fun _ _ _ hI h => hI.step h) (fun _ hI => hI.returned) hstart run

def failedLookup : List CategoryStep :=
  let market : EventMarket := ⟨"FED-25", some "FED", none⟩
  let call (now : ℚ) (order : List String) (failures : String → Option ClientError) : CategoryStep :=
    .call ⟨.getMarket (.ok market), now, order, failures⟩
  [call 0 ["FED"] (fun _ => some (.api 404 "not found")), .resume 0, .resume 0,
    call 60 [] (fun _ => none), .resume 0]

/-- The second call returns the market without its category. -/
theorem not_transparent_failedLookup :
    ¬ AllStates (categoryStep fun _ => some "Economics")
      (fun s => ∀ r ∈ s.returned, r.Transparent fun _ => some "Economics") .start failedLookup := by
  intro h
  have hrun : (exec (categoryStep fun _ => some "Economics") .start failedLookup).map
      (fun s => s.returned.head?.map fun r =>
        (r.fetched, r.call.failures "FED", r.outcome.toOption)) =
      some (some ([⟨"FED-25", some "FED", none⟩], none, some [⟨"FED-25", some "FED", none⟩])) := by
    decide +kernel
  obtain ⟨s, hall, hview⟩ := h.last_view hrun
  obtain ⟨r, hr, hparts⟩ := Option.map_eq_some_iff.mp hview
  obtain ⟨hfetched, hrest⟩ := Prod.mk.inj hparts
  obtain ⟨hsucceeds, houtcome⟩ := Prod.mk.inj hrest
  obtain ⟨markets, hok, hmarkets⟩ := hall r (List.mem_of_head? hr)
  rw [hok] at houtcome
  cases houtcome
  rw [hfetched] at hmarkets
  cases hmarkets with
  | cons hmarket _ =>
    have hfilled := hmarket "FED" rfl hsucceeds
    cases congrArg EventMarket.category hfilled

end KalshiAgent

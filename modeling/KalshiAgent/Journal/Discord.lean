import KalshiAgent.Lib.Execution
import KalshiAgent.Lib.Spacing
import KalshiAgent.Llm.Json

/-! The Discord notifier. All tasks post through one webhook, under one lock that a post keeps while
it waits, also for the second try after a 429. -/

namespace KalshiAgent
open Execution Metering

structure Webhook where
  url : Option String
  minInterval : ℚ
  -- `asyncio.sleep` raises on a NaN delay, from Python 3.13 on
  refusesNan : Bool

def Webhook.enabled (w : Webhook) : Bool := w.url.any (· ≠ "")

inductive PostPhase
  -- the interval after the last post is not over
  | waiting (content : String) (wakeAt : ℚ)
  | posting (content : String)
  -- after a 429; `none` where the wait has no end
  | backingOff (content : String) (wakeAt : Option ℚ)
  | reposting

structure DiscordNotifier where
  lastPost : ℚ
  holder : Option PostPhase
  -- the last reading of `time.monotonic`
  now : ℚ
  -- ghost state: the posts that are finished and the one under way, and what has been sent
  finished : List (Pass ℚ)
  current : Option (Pass ℚ)
  sent : List String

inductive PostEvent
  | enters (content : String)
  | wakes
  -- the status and the header `retry-after`, read by `float`; the inner `none` is ValueError
  | answers (statusCode : ℕ) (retryAfter : Option (Option PyFloat))
  -- any other exception
  | fails
  | cancelled

namespace DiscordNotifier

def init (now : ℚ) : DiscordNotifier := ⟨0, none, now, [], none, []⟩

def payload (content : String) : String := String.ofList (content.toList.take 1900)

def transmit (s : DiscordNotifier) (content : String) (now : ℚ) : DiscordNotifier :=
  { s with
    holder := some (.posting content)
    now
    current := some ⟨now, now, [now]⟩
    sent := s.sent ++ [payload content] }

def retransmit (s : DiscordNotifier) (content : String) (now : ℚ) : DiscordNotifier :=
  { s with
    holder := some .reposting
    now
    current := s.current.map fun p => { p with stop := now, marks := p.marks ++ [now] }
    sent := s.sent ++ [payload content] }

def ends (s : DiscordNotifier) (now : ℚ) : DiscordNotifier :=
  { s with
    lastPost := now
    holder := none
    now
    finished := s.finished ++ (s.current.map fun p => { p with stop := now }).toList
    current := none }

def backOff (s : DiscordNotifier) (w : Webhook) (content : String) (now : ℚ) :
    PyFloat → DiscordNotifier
  | .finite x _ => { s with holder := some (.backingOff content (some (now + (x + 1 / 2)))), now }
  | .posInf => { s with holder := some (.backingOff content none), now }
  | .negInf => { s with holder := some (.backingOff content (some now)), now }
  | .nan =>
    if w.refusesNan then s.ends now
    else { s with holder := some (.backingOff content (some now)), now }

def enter (s : DiscordNotifier) (w : Webhook) (content : String) (now : ℚ) : DiscordNotifier :=
  if w.enabled then
    let elapsed := now - s.lastPost
    if elapsed < w.minInterval then
      { s with holder := some (.waiting content (now + (w.minInterval - elapsed))), now }
    else s.transmit content now
  else { s with now }

def answered (s : DiscordNotifier) (w : Webhook) (content : String) (now : ℚ) (statusCode : ℕ)
    (retryAfter : Option (Option PyFloat)) : DiscordNotifier :=
  if statusCode = 429 then
    match retryAfter with
    | none => s.backOff w content now .one
    | some none => s.ends now
    | some (some delay) => s.backOff w content now delay
  else s.ends now

end DiscordNotifier

def postStep (w : Webhook) (s : DiscordNotifier) : PostEvent × ℚ → Option DiscordNotifier
  | (event, now) =>
    if now < s.now then none
    else
      match event, s.holder with
      | .enters content, none => some (s.enter w content now)
      | .wakes, some (.waiting content wakeAt) =>
        if wakeAt ≤ now then some (s.transmit content now) else none
      | .wakes, some (.backingOff content (some wakeAt)) =>
        if wakeAt ≤ now then some (s.retransmit content now) else none
      | .answers statusCode retryAfter, some (.posting content) =>
        some (s.answered w content now statusCode retryAfter)
      | .answers _ _, some .reposting => some (s.ends now)
      | .fails, some (.posting _) => some (s.ends now)
      | .fails, some .reposting => some (s.ends now)
      -- the wait for the interval is outside of the `try`
      | .cancelled, some (.waiting _ _) => some { s with holder := none, now }
      | .cancelled, some _ => some (s.ends now)
      | _, _ => none

def DiscordNotifier.posts (s : DiscordNotifier) : List (Pass ℚ) := s.finished ++ s.current.toList

/-- What Discord sees of all posts. -/
structure DiscordNotifier.Paced (minInterval : ℚ) (s : DiscordNotifier) : Prop where
  spaced : Spaced minInterval s.posts
  twice : ∀ p ∈ s.posts, p.Fits 2
  bounded : 0 < minInterval → ∀ a b, a ≤ b →
    (within a b (s.posts.flatMap Pass.marks) : ℚ) ≤ (2 : ℕ) * (1 + (b - a) / minInterval)
  short : ∀ content ∈ s.sent, content.length ≤ 1900

def PostPhase.Tried : Option PostPhase → Option (Pass ℚ) → Prop
  | none, none | some (.waiting _ _), none => True
  | some (.posting _), some p | some (.backingOff _ _), some p => p.marks.length = 1
  | some .reposting, some p => p.marks.length = 2
  | _, _ => False

structure DiscordNotifier.Kept (minInterval : ℚ) (s : DiscordNotifier) : Prop where
  spaced : Spaced minInterval s.finished
  twice : ∀ p ∈ s.finished, p.Fits 2
  stop_le : ∀ p ∈ s.finished, p.stop ≤ s.lastPost ∧ p.stop ≤ s.now
  wait_le : ∀ content wakeAt, s.holder = some (.waiting content wakeAt) →
    s.lastPost + minInterval ≤ wakeAt
  tried : PostPhase.Tried s.holder s.current
  start_ge : ∀ p ∈ s.current, s.lastPost + minInterval ≤ p.start
  fits : ∀ p ∈ s.current, p.Fits 2 ∧ p.start ≤ p.stop ∧ p.stop ≤ s.now
  short : ∀ content ∈ s.sent, content.length ≤ 1900

namespace DiscordNotifier.Kept
open DiscordNotifier
variable {w : Webhook} {s s' : DiscordNotifier} {p : Pass ℚ} {content : String} {now : ℚ}

theorem init (minInterval now : ℚ) : (init now).Kept minInterval where
  spaced := List.Pairwise.nil
  twice _ h := absurd h List.not_mem_nil
  stop_le _ h := absurd h List.not_mem_nil
  wait_le _ _ h := absurd h nofun
  tried := trivial
  start_ge _ h := absurd h nofun
  fits _ h := absurd h nofun
  short _ h := absurd h List.not_mem_nil

theorem payload_length (content : String) : (payload content).length ≤ 1900 := by
  rw [payload, String.length_ofList]
  exact List.length_take_le _ _

theorem short_concat (h : s.Kept w.minInterval) (content : String) :
    ∀ c ∈ s.sent ++ [payload content], c.length ≤ 1900 := by
  intro c hc
  rcases List.mem_append.mp hc with hc | hc
  · exact h.short c hc
  · rw [List.mem_singleton.mp hc]
    exact payload_length content

theorem later (h : s.Kept w.minInterval) (hnow : s.now ≤ now) :
    (∀ p ∈ s.finished, p.stop ≤ s.lastPost ∧ p.stop ≤ now) ∧
      ∀ p ∈ s.current, p.Fits 2 ∧ p.start ≤ p.stop ∧ p.stop ≤ now := by
  constructor
  · exact fun p hp => ⟨(h.stop_le p hp).1, (h.stop_le p hp).2.trans hnow⟩
  · exact fun p hp => ⟨(h.fits p hp).1, (h.fits p hp).2.1, (h.fits p hp).2.2.trans hnow⟩

theorem hold (h : s.Kept w.minInterval) (hnow : s.now ≤ now) {holder : Option PostPhase}
    (htried : PostPhase.Tried holder s.current)
    (hwait : ∀ content wakeAt, holder = some (.waiting content wakeAt) →
      s.lastPost + w.minInterval ≤ wakeAt) :
    Kept w.minInterval { s with holder, now } :=
  ⟨h.spaced, h.twice, (h.later hnow).1, hwait, htried, h.start_ge, (h.later hnow).2, h.short⟩

theorem transmit (h : s.Kept w.minInterval) (content : String) (hnow : s.now ≤ now)
    (hinterval : s.lastPost + w.minInterval ≤ now) : (s.transmit content now).Kept w.minInterval where
  spaced := h.spaced
  twice := h.twice
  stop_le := (h.later hnow).1
  wait_le _ _ h := absurd h nofun
  tried := rfl
  start_ge p hp := by
    cases hp
    exact hinterval
  fits p hp := by
    cases hp
    exact ⟨Pass.fits_single (Nat.le_succ 1) now, le_rfl, le_rfl⟩
  short := h.short_concat content

theorem retransmit (h : s.Kept w.minInterval) {wakeAt : Option ℚ}
    (hholder : s.holder = some (.backingOff content wakeAt)) (hnow : s.now ≤ now) :
    (s.retransmit content now).Kept w.minInterval := by
  have htried := h.tried
  rw [hholder] at htried
  cases hcurrent : s.current with
  | none =>
    rw [hcurrent] at htried
    exact absurd htried id
  | some p =>
    rw [hcurrent] at htried
    have hone : p.marks.length = 1 := htried
    obtain ⟨hfits, hstart, hstop⟩ := h.fits p hcurrent
    have hlate : p.stop ≤ now := hstop.trans hnow
    have hcurrent' : (s.retransmit content now).current =
        some { p with stop := now, marks := p.marks ++ [now] } := by
      rw [DiscordNotifier.retransmit, hcurrent]
      rfl
    refine ⟨h.spaced, h.twice, (h.later hnow).1, fun _ _ h => absurd h nofun, ?_, ?_, ?_,
      h.short_concat content⟩
    · rw [hcurrent']
      show (p.marks ++ [now]).length = 2
      rw [List.length_append, hone]
      rfl
    · intro q hq
      cases hcurrent'.symm.trans hq
      exact h.start_ge p hcurrent
    · intro q hq
      cases hcurrent'.symm.trans hq
      have hroom : p.marks.length < 2 := hone.trans_lt Nat.one_lt_two
      exact ⟨hfits.concat hroom (hstart.trans hlate) hlate, hstart.trans hlate, le_rfl⟩

theorem ends (h : s.Kept w.minInterval) (hcurrent : s.current = some p) (hnow : s.now ≤ now) :
    (s.ends now).Kept w.minInterval := by
  obtain ⟨hfits, hstart, hstop⟩ := h.fits p hcurrent
  have hlate : p.stop ≤ now := hstop.trans hnow
  have hfinished : (s.ends now).finished = s.finished ++ [{ p with stop := now }] := by
    rw [DiscordNotifier.ends, hcurrent]
    rfl
  have hclosed : Pass.Fits 2 { p with stop := now } := hfits.later hlate
  refine ⟨?_, ?_, ?_, fun _ _ h => absurd h nofun, trivial, fun _ h => absurd h nofun,
    fun _ h => absurd h nofun, h.short⟩
  · rw [hfinished]
    apply h.spaced.concat
    intro q hq
    have hbefore := (h.stop_le q hq).1
    have hafter := h.start_ge p hcurrent
    dsimp only
    linarith
  · rw [hfinished]
    intro q hq
    rcases List.mem_append.mp hq with hq | hq
    · exact h.twice q hq
    · exact (List.mem_singleton.mp hq) ▸ hclosed
  · rw [hfinished]
    intro q hq
    rcases List.mem_append.mp hq with hq | hq
    · have hpast := (h.stop_le q hq).2.trans hnow
      exact ⟨hpast, hpast⟩
    · rw [List.mem_singleton.mp hq]
      exact ⟨le_rfl, le_rfl⟩

theorem enter (h : s.Kept w.minInterval) (hholder : s.holder = none) (content : String)
    (hnow : s.now ≤ now) : (s.enter w content now).Kept w.minInterval := by
  have hnone : s.current = none := by
    have htried := h.tried
    rw [hholder] at htried
    cases hcurrent : s.current with
    | none => rfl
    | some p =>
      rw [hcurrent] at htried
      exact absurd htried id
  unfold DiscordNotifier.enter
  dsimp only
  split_ifs with _ hsoon
  · apply h.hold hnow
    · rw [hnone]
      trivial
    · intro content' wakeAt heq
      cases heq
      linarith
  · apply h.transmit content hnow
    linarith
  · exact h.hold hnow h.tried h.wait_le

theorem backOff (h : s.Kept w.minInterval) (hcurrent : s.current = some p) (hone : p.marks.length = 1)
    (hnow : s.now ≤ now) (delay : PyFloat) : (s.backOff w content now delay).Kept w.minInterval := by
  have hheld : ∀ wakeAt,
      Kept w.minInterval { s with holder := some (.backingOff content wakeAt), now } := by
    intro wakeAt
    apply h.hold hnow
    · rw [hcurrent]
      exact hone
    · exact fun _ _ heq => absurd heq nofun
  cases delay with
  | finite x _ => exact hheld _
  | posInf => exact hheld _
  | negInf => exact hheld _
  | nan =>
    unfold DiscordNotifier.backOff
    split_ifs
    · exact h.ends hcurrent hnow
    · exact hheld _

theorem exists_current (h : s.Kept w.minInterval) {phase : PostPhase} (hholder : s.holder = some phase)
    (hphase : ∀ content wakeAt, phase ≠ .waiting content wakeAt) : ∃ p, s.current = some p := by
  have htried := h.tried
  rw [hholder] at htried
  cases hcurrent : s.current with
  | some p => exact ⟨p, rfl⟩
  | none =>
    rw [hcurrent] at htried
    cases phase with
    | waiting content wakeAt => exact absurd rfl (hphase content wakeAt)
    | posting => exact absurd htried id
    | backingOff => exact absurd htried id
    | reposting => exact absurd htried id

theorem ended (h : s.Kept w.minInterval) {phase : PostPhase} (hholder : s.holder = some phase)
    (hphase : ∀ content wakeAt, phase ≠ .waiting content wakeAt) (hnow : s.now ≤ now) :
    (s.ends now).Kept w.minInterval := by
  obtain ⟨p, hcurrent⟩ := h.exists_current hholder hphase
  exact h.ends hcurrent hnow

theorem answered (h : s.Kept w.minInterval) (hholder : s.holder = some (.posting content))
    (hnow : s.now ≤ now) (statusCode : ℕ) (retryAfter : Option (Option PyFloat)) :
    (s.answered w content now statusCode retryAfter).Kept w.minInterval := by
  obtain ⟨p, hcurrent⟩ := h.exists_current hholder nofun
  have hone : p.marks.length = 1 := by
    have htried := h.tried
    rw [hholder, hcurrent] at htried
    exact htried
  unfold DiscordNotifier.answered
  split_ifs
  · split
    · exact h.backOff hcurrent hone hnow _
    · exact h.ends hcurrent hnow
    · exact h.backOff hcurrent hone hnow _
  · exact h.ends hcurrent hnow

theorem step (h : s.Kept w.minInterval) {event : PostEvent × ℚ} (hstep : postStep w s event = some s') :
    s'.Kept w.minInterval := by
  obtain ⟨event, now⟩ := event
  simp only [postStep] at hstep
  split_ifs at hstep with hpast
  have hnow : s.now ≤ now := not_lt.mp hpast
  split at hstep
  case h_1 content hholder =>
    cases hstep
    exact h.enter hholder content hnow
  case h_2 content wakeAt hholder =>
    split_ifs at hstep with hawake
    cases hstep
    exact h.transmit content hnow ((h.wait_le content wakeAt hholder).trans hawake)
  case h_3 content wakeAt hholder =>
    split_ifs at hstep
    cases hstep
    exact h.retransmit hholder hnow
  case h_4 statusCode retryAfter content hholder =>
    cases hstep
    exact h.answered hholder hnow statusCode retryAfter
  case h_8 content wakeAt hholder =>
    -- nothing has been sent
    cases hstep
    apply h.hold hnow
    · have htried := h.tried
      rw [hholder] at htried
      cases hcurrent : s.current with
      | none => trivial
      | some p =>
        rw [hcurrent] at htried
        exact absurd htried id
    · exact fun _ _ heq => absurd heq nofun
  case h_9 phase hphase hholder =>
    cases hstep
    exact h.ended hholder hphase hnow
  case h_10 => exact absurd hstep.symm (Option.some_ne_none _)
  -- an answer to the last try, or an exception
  case h_5 hholder | h_6 hholder | h_7 hholder =>
    cases hstep
    exact h.ended hholder nofun hnow

end DiscordNotifier.Kept

theorem DiscordNotifier.Kept.paced {minInterval : ℚ} {s : DiscordNotifier} (h : s.Kept minInterval) :
    s.Paced minInterval := by
  have hposts : ∀ p ∈ s.posts, p.Fits 2 := by
    intro p hp
    rcases List.mem_append.mp hp with hp | hp
    · exact h.twice p hp
    · exact (h.fits p (Option.mem_toList.mp hp)).1
  have hspaced : Spaced minInterval s.posts := by
    unfold DiscordNotifier.posts
    cases hcurrent : s.current with
    | none =>
      rw [Option.toList_none, List.append_nil]
      exact h.spaced
    | some p =>
      apply h.spaced.concat
      intro q hq
      have hstart := h.start_ge p hcurrent
      exact (add_le_add_left (h.stop_le q hq).1 minInterval).trans hstart
  exact ⟨hspaced, hposts, fun hpos a b hab => hspaced.within_le hpos hposts hab, h.short⟩

/-- In every run of all that post, whatever Discord answers and whoever is cancelled. -/
theorem posts_paced (w : Webhook) (now : ℚ) (events : List (PostEvent × ℚ)) :
    AllStates (postStep w) (DiscordNotifier.Paced w.minInterval) (.init now) events := by
  apply allStates_of_invariant (I := DiscordNotifier.Kept w.minInterval) _ _ _ events
  · exact fun s event s' h hstep => h.step hstep
  · exact fun s h => h.paced
  · exact .init w.minInterval now

end KalshiAgent

import Mathlib.Data.List.Basic
import Mathlib.Data.List.Infix
import Mathlib.Data.List.TakeWhile

/-! Substitution of tokens in a text. A token to be replaced begins with one of some openings and
goes on to the next delimiter, and the replacement begins with an opening itself. Under the two laws
on overlaps the result holds no opened token but the replacement, and is substituted to itself. -/

namespace Redaction
variable {α : Type*} [DecidableEq α]

/-- A token to be replaced begins here: an opening, and at least one element of a token after it. -/
def opens (inToken : α → Bool) (openings : List (List α)) (text : List α) : Bool :=
  openings.any (fun p => p.isPrefixOf text && (text.drop p.length).head?.any inToken)

structure Pattern (α : Type*) [DecidableEq α] where
  inToken : α → Bool
  openings : List (List α)
  replacement : List α
  openings_inToken : ∀ p ∈ openings, ∀ a ∈ p, inToken a = true
  replacement_inToken : ∀ a ∈ replacement, inToken a = true
  -- no token begins inside the replacement
  not_opens_inside : ∀ w ∈ replacement.tails, w ≠ replacement → opens inToken openings w = false
  -- no opening ends with what the replacement begins with
  no_overlap : ∀ p ∈ openings, ∀ q ∈ p.tails, q ≠ p → q <+: replacement → q = []

namespace Pattern
variable (pat : Pattern α)

/-- The leftmost tokens are replaced, one after the other; `replaced` while one is passed over. -/
def sub : Bool → List α → List α
  | _, [] => []
  | true, c :: cs => if pat.inToken c then sub true cs else c :: sub false cs
  | false, c :: cs =>
    if opens pat.inToken pat.openings (c :: cs) then pat.replacement ++ sub true cs
    else c :: sub false cs

/-- Every token that an opening begins is the replacement. -/
def Clean (text : List α) : Prop :=
  ∀ w, w <:+ text → opens pat.inToken pat.openings w = true →
    w.takeWhile pat.inToken = pat.replacement

variable {pat}

theorem opens_iff {inToken : α → Bool} {openings : List (List α)} {text : List α} :
    opens inToken openings text = true ↔
      ∃ p ∈ openings, ∃ a, inToken a = true ∧ p ++ [a] <+: text := by
  unfold opens
  rw [List.any_eq_true]
  apply exists_congr
  intro p
  apply and_congr_right
  intro _
  rw [Bool.and_eq_true, List.isPrefixOf_iff_prefix]
  constructor
  · rintro ⟨⟨rest, rfl⟩, hnext⟩
    rw [List.drop_left] at hnext
    cases rest with
    | nil => exact absurd hnext Bool.false_ne_true
    | cons a rest => exact ⟨a, hnext, ⟨rest, by rw [List.append_assoc]; rfl⟩⟩
  · rintro ⟨a, ha, rest, rfl⟩
    rw [List.append_assoc]
    refine ⟨List.prefix_append p _, ?_⟩
    rw [List.drop_left]
    exact ha

omit [DecidableEq α] in
theorem prefix_takeWhile_iff {p : α → Bool} {xs text : List α} (h : ∀ a ∈ xs, p a = true) :
    xs <+: text.takeWhile p ↔ xs <+: text := by
  constructor
  · intro hx
    exact hx.trans (List.takeWhile_prefix p)
  · rintro ⟨rest, rfl⟩
    rw [List.takeWhile_append_of_pos h]
    exact List.prefix_append xs _

theorem opens_takeWhile (text : List α) :
    opens pat.inToken pat.openings (text.takeWhile pat.inToken) =
      opens pat.inToken pat.openings text := by
  rw [Bool.eq_iff_iff, opens_iff, opens_iff]
  apply exists_congr
  intro p
  apply and_congr_right
  intro hp
  apply exists_congr
  intro a
  apply and_congr_right
  intro ha
  apply prefix_takeWhile_iff
  intro b hb
  rcases List.mem_append.mp hb with hb | hb
  · exact pat.openings_inToken p hp b hb
  · exact List.mem_singleton.mp hb ▸ ha

theorem head_inToken {c : α} {cs : List α}
    (h : opens pat.inToken pat.openings (c :: cs) = true) : pat.inToken c = true := by
  rw [← opens_takeWhile] at h
  by_contra hc
  rw [List.takeWhile_cons_of_neg hc] at h
  obtain ⟨p, _, a, _, hnil⟩ := opens_iff.mp h
  exact absurd (List.prefix_nil.mp hnil) (List.append_ne_nil_of_right_ne_nil p (List.cons_ne_nil a []))

theorem takeWhile_sub_true (cs : List α) : (pat.sub true cs).takeWhile pat.inToken = [] := by
  induction cs with
  | nil => rfl
  | cons c cs ih =>
    unfold sub
    split_ifs with hc
    · exact ih
    · exact List.takeWhile_cons_of_neg hc

theorem takeWhile_replacement_append (cs : List α) :
    (pat.replacement ++ pat.sub true cs).takeWhile pat.inToken = pat.replacement := by
  rw [List.takeWhile_append_of_pos pat.replacement_inToken, takeWhile_sub_true, List.append_nil]

theorem takeWhile_sub_false (cs : List α) :
    (pat.sub false cs).takeWhile pat.inToken = cs.takeWhile pat.inToken ∨
      ∃ before token, cs.takeWhile pat.inToken = before ++ token ∧
        opens pat.inToken pat.openings token = true ∧
        (pat.sub false cs).takeWhile pat.inToken = before ++ pat.replacement := by
  induction cs with
  | nil => exact .inl rfl
  | cons c cs ih =>
    unfold sub
    split_ifs with hopens
    · rw [← opens_takeWhile] at hopens
      exact .inr ⟨[], _, rfl, hopens, takeWhile_replacement_append cs⟩
    by_cases hc : pat.inToken c = true
    · rw [List.takeWhile_cons_of_pos hc, List.takeWhile_cons_of_pos hc]
      rcases ih with hsame | ⟨before, token, htoken, hopens, hsub⟩
      · exact .inl (congrArg (c :: ·) hsame)
      · exact .inr ⟨c :: before, token, congrArg (c :: ·) htoken, hopens, congrArg (c :: ·) hsub⟩
    · rw [List.takeWhile_cons_of_neg hc, List.takeWhile_cons_of_neg hc]
      exact .inl rfl

/-- Where the text goes on with a token, an opening that the replacement would complete is there
without it. -/
theorem opens_of_opens_replacement {front token : List α} (hfront : front ≠ [])
    (htoken : opens pat.inToken pat.openings token = true)
    (h : opens pat.inToken pat.openings (front ++ pat.replacement) = true) :
    opens pat.inToken pat.openings (front ++ token) = true := by
  obtain ⟨p, hp, a, ha, hprefix⟩ := opens_iff.mp h
  apply opens_iff.mpr
  rcases Nat.lt_or_ge p.length front.length with hshort | hlong
  · have hinside : p ++ [a] <+: front := by
      refine List.prefix_of_prefix_length_le hprefix (List.prefix_append _ _) ?_
      rw [List.length_append]
      exact hshort
    exact ⟨p, hp, a, ha, hinside.trans (List.prefix_append _ _)⟩
  · have hbegins : front <+: p := List.prefix_of_prefix_length_le (List.prefix_append _ _)
      ((List.prefix_append p [a]).trans hprefix) hlong
    obtain ⟨q, rfl⟩ := hbegins
    rw [List.append_assoc, List.prefix_append_right_inj] at hprefix
    have hq : q <+: pat.replacement := (List.prefix_append q [a]).trans hprefix
    have hnil : q = [] := by
      refine pat.no_overlap _ hp q ((List.mem_tails _ _).mpr (List.suffix_append front q)) ?_ hq
      intro hself
      exact hfront (List.append_left_eq_self.mp hself.symm)
    subst hnil
    cases token with
    | nil =>
      obtain ⟨p', _, b, _, hprefix'⟩ := opens_iff.mp htoken
      exact absurd (List.prefix_nil.mp hprefix')
        (List.append_ne_nil_of_right_ne_nil p' (List.cons_ne_nil b []))
    | cons b rest =>
      refine ⟨_, hp, b, head_inToken htoken, ?_⟩
      rw [List.append_nil, List.prefix_append_right_inj]
      exact List.prefix_append [b] rest

theorem not_opens_cons_sub {c : α} {cs : List α}
    (h : ¬ opens pat.inToken pat.openings (c :: cs) = true) :
    ¬ opens pat.inToken pat.openings (c :: pat.sub false cs) = true := by
  intro hopens
  have hc := head_inToken hopens
  rw [← opens_takeWhile, List.takeWhile_cons_of_pos hc] at h hopens
  rcases @takeWhile_sub_false _ _ pat cs with hsame | ⟨before, token, htoken, hopened, hsub⟩
  · exact h (hsame ▸ hopens)
  · rw [hsub] at hopens
    rw [htoken] at h
    exact h (opens_of_opens_replacement (List.cons_ne_nil c before) hopened hopens)

theorem clean_sub (cs : List α) (b : Bool) : pat.Clean (pat.sub b cs) := by
  induction cs generalizing b with
  | nil =>
    intro w hw hopens
    obtain ⟨p, _, a, _, hprefix⟩ := opens_iff.mp hopens
    rw [show pat.sub b [] = [] by cases b <;> rfl, List.suffix_nil] at hw
    rw [hw, List.prefix_nil] at hprefix
    exact absurd hprefix (List.append_ne_nil_of_right_ne_nil p (List.cons_ne_nil a []))
  | cons c cs ih =>
    cases b with
    | true =>
      unfold sub
      split_ifs with hc
      · exact ih true
      · intro w hw hopens
        rcases List.suffix_cons_iff.mp hw with rfl | hw
        · exact absurd (head_inToken hopens) hc
        · exact ih false w hw hopens
    | false =>
      unfold sub
      split_ifs with hmatch
      · intro w hw hopens
        rcases List.suffix_or_suffix_of_suffix hw (List.suffix_append pat.replacement _) with hrest | hover
        · exact ih true w hrest hopens
        · obtain ⟨u, rfl⟩ := hover
          have hu : u <:+ pat.replacement := by
            obtain ⟨front, hfront⟩ := hw
            rw [← List.append_assoc] at hfront
            exact ⟨front, List.append_cancel_right hfront⟩
          have htoken : (u ++ pat.sub true cs).takeWhile pat.inToken = u := by
            rw [List.takeWhile_append_of_pos (fun a ha => pat.replacement_inToken a (hu.subset ha)),
              takeWhile_sub_true, List.append_nil]
          rw [← opens_takeWhile, htoken] at hopens
          rw [htoken]
          by_contra hne
          rw [pat.not_opens_inside u ((List.mem_tails _ _).mpr hu) hne] at hopens
          exact Bool.false_ne_true hopens
      · intro w hw hopens
        rcases List.suffix_cons_iff.mp hw with rfl | hw
        · exact absurd hopens (not_opens_cons_sub hmatch)
        · exact ih false w hw hopens

theorem Clean.of_suffix {text w : List α} (h : pat.Clean text) (hw : w <:+ text) : pat.Clean w :=
  fun v hv => h v (hv.trans hw)

theorem sub_of_clean {text : List α} (h : pat.Clean text) :
    pat.sub false text = text ∧ pat.sub true text = text.dropWhile pat.inToken := by
  induction text with
  | nil => exact ⟨rfl, rfl⟩
  | cons c cs ih =>
    obtain ⟨hfalse, htrue⟩ := ih (h.of_suffix (List.suffix_cons c cs))
    constructor
    · unfold sub
      split_ifs with hopens
      · have hc := head_inToken hopens
        have hwhole := List.takeWhile_append_dropWhile (p := pat.inToken) (l := c :: cs)
        rw [h _ List.suffix_rfl hopens, List.dropWhile_cons_of_pos hc] at hwhole
        rw [htrue]
        exact hwhole
      · rw [hfalse]
    · unfold sub
      split_ifs with hc
      · rw [htrue, List.dropWhile_cons_of_pos hc]
      · rw [hfalse, List.dropWhile_cons_of_neg hc]

theorem sub_sub (text : List α) : pat.sub false (pat.sub false text) = pat.sub false text :=
  (sub_of_clean (clean_sub text false)).1

end Pattern
end Redaction

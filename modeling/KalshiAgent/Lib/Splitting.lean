import Mathlib.Data.List.DropRight

/-! Splitting a text once at its blanks, and trimming it. Which characters are blank is a
parameter, and so is what they are characters of. -/

namespace Splitting
variable {α : Type*} (blank : α → Bool)

def trim (text : List α) : List α := (text.dropWhile blank).rdropWhile blank

/-- The parts of `str.split(None, 1)`. -/
def splitOnce (text : List α) : List (List α) :=
  let rest := text.dropWhile blank
  if rest.isEmpty then []
  else
    let word := rest.takeWhile (fun c => !blank c)
    let tail := (rest.dropWhile (fun c => !blank c)).dropWhile blank
    if tail.isEmpty then [word] else [word, tail]

def Opens (text : List α) : Prop := ∀ c ∈ text.head?, blank c = false

def Closes (text : List α) : Prop := ∀ c ∈ text.getLast?, blank c = false

/-- A text is a word, then blanks, then the trimmed part, with blanks around them. -/
structure Presents (text word part : List α) : Prop where
  ex : ∃ before gap after, text = before ++ word ++ gap ++ part ++ after ∧
    (∀ c ∈ before, blank c = true) ∧ gap ≠ [] ∧ (∀ c ∈ gap, blank c = true) ∧
    ∀ c ∈ after, blank c = true
  word_ne : word ≠ []
  word_not : ∀ c ∈ word, blank c = false
  part_ne : part ≠ []
  opens : Opens blank part
  closes : Closes blank part

variable {blank} {text word part rest : List α}

theorem dropWhile_of_opens (h : Opens blank text) : text.dropWhile blank = text := by
  cases text with
  | nil => rfl
  | cons c cs =>
    have hc : blank c = false := h c rfl
    rw [List.dropWhile_cons_of_neg (by rw [hc]; exact Bool.false_ne_true)]

theorem opens_dropWhile (blank : α → Bool) (text : List α) : Opens blank (text.dropWhile blank) := by
  intro c hc
  have hnot := List.head?_dropWhile_not blank text
  rw [Option.mem_def.mp hc] at hnot
  simpa using hnot

theorem takeWhile_append_of_opens {p : α → Bool} (hword : ∀ c ∈ word, p c = true)
    (hrest : Opens p rest) : (word ++ rest).takeWhile p = word := by
  have hnone : rest.takeWhile p = [] := by
    cases rest with
    | nil => rfl
    | cons c cs =>
      have hc : p c = false := hrest c rfl
      rw [List.takeWhile_cons_of_neg (by rw [hc]; exact Bool.false_ne_true)]
  rw [List.takeWhile_append_of_pos hword, hnone, List.append_nil]

theorem dropWhile_append_of_opens {p : α → Bool} (hword : ∀ c ∈ word, p c = true)
    (hrest : Opens p rest) : (word ++ rest).dropWhile p = rest := by
  rw [List.dropWhile_append_of_pos hword, dropWhile_of_opens hrest]

theorem rdropWhile_of_closes (h : Closes blank text) : text.rdropWhile blank = text := by
  rw [List.rdropWhile_eq_self_iff]
  intro hne
  have hlast := h (text.getLast hne) (List.getLast?_eq_some_getLast hne)
  rw [hlast]
  exact Bool.false_ne_true

theorem closes_rdropWhile (blank : α → Bool) (text : List α) :
    Closes blank (text.rdropWhile blank) := by
  intro c hc
  obtain ⟨hne, hlast⟩ := List.mem_getLast?_eq_getLast hc
  have hnot := List.rdropWhile_last_not blank text hne
  rw [← hlast] at hnot
  exact Bool.eq_false_iff.mpr hnot

theorem rdropWhile_append_of_closes {after : List α} (hafter : ∀ c ∈ after, blank c = true)
    (hpart : Closes blank part) : (part ++ after).rdropWhile blank = part := by
  have hreverse : (part ++ after).rdropWhile blank = part.rdropWhile blank := by
    rw [List.rdropWhile, List.rdropWhile, List.reverse_append,
      List.dropWhile_append_of_pos fun c hc => hafter c (List.mem_reverse.mp hc)]
  rw [hreverse, rdropWhile_of_closes hpart]

theorem trim_of_opens (h : Opens blank text) : ∃ after, text = trim blank text ++ after ∧
    ∀ c ∈ after, blank c = true := by
  refine ⟨text.rtakeWhile blank, ?_, fun c hc => List.mem_rtakeWhile_imp hc⟩
  rw [trim, dropWhile_of_opens h, List.rdropWhile_append_rtakeWhile]

theorem trim_eq_self (hopens : Opens blank text) (hcloses : Closes blank text) :
    trim blank text = text := by
  rw [trim, dropWhile_of_opens hopens, rdropWhile_of_closes hcloses]

theorem opens_of_append {after : List α} (hpart : part ≠ []) (h : Opens blank (part ++ after)) :
    Opens blank part := by
  intro c hc
  apply h c
  rw [List.head?_append_of_ne_nil _ hpart]
  exact hc

theorem opens_append {after : List α} (hpart : part ≠ []) (h : Opens blank part) :
    Opens blank (part ++ after) := by
  intro c hc
  rw [List.head?_append_of_ne_nil _ hpart] at hc
  exact h c hc

theorem trim_ne_nil (htext : text ≠ []) (h : Opens blank text) : trim blank text ≠ [] := by
  intro hempty
  rw [trim, dropWhile_of_opens h, List.rdropWhile_eq_nil_iff] at hempty
  have hhead := List.head_mem htext
  have hblank := hempty _ hhead
  rw [h (text.head htext) (List.head?_eq_some_head htext)] at hblank
  exact Bool.false_ne_true hblank

theorem takeWhile_ne_nil (hrest : rest ≠ []) (h : Opens blank rest) :
    rest.takeWhile (fun c => !blank c) ≠ [] := by
  obtain ⟨c, cs, rfl⟩ := List.exists_cons_of_ne_nil hrest
  have hc : blank c = false := h c rfl
  rw [List.takeWhile_cons_of_pos (by rw [hc]; rfl)]
  exact List.cons_ne_nil _ _

theorem gap_ne_nil {tail : List α} (htail : tail.dropWhile blank ≠ [])
    (h : Opens (fun c => !blank c) tail) : tail.takeWhile blank ≠ [] := by
  have hne : tail ≠ [] := fun hnil => htail (by rw [hnil]; rfl)
  obtain ⟨c, cs, rfl⟩ := List.exists_cons_of_ne_nil hne
  have hc : (!blank c) = false := h c rfl
  rw [List.takeWhile_cons_of_pos (by rwa [Bool.not_eq_false'] at hc)]
  exact List.cons_ne_nil _ _

theorem presents_of_splitOnce {tail : List α} (hsplit : splitOnce blank text = [word, tail]) :
    Presents blank text word (trim blank tail) := by
  have hopens := opens_dropWhile blank text
  have htext := List.takeWhile_append_dropWhile (p := blank) (l := text)
  unfold splitOnce at hsplit
  dsimp only at hsplit
  generalize text.dropWhile blank = rest at hopens htext hsplit
  have hstops := opens_dropWhile (fun c => !blank c) rest
  have hrest := List.takeWhile_append_dropWhile (p := fun c => !blank c) (l := rest)
  split_ifs at hsplit with hempty hnone
  · cases hsplit
  · obtain ⟨hword, htail⟩ := List.cons.inj hsplit
    obtain ⟨htail, -⟩ := List.cons.inj htail
    rw [hword] at hrest
    generalize rest.dropWhile (fun c => !blank c) = spaced at hstops hrest htail hnone
    have hspaced := List.takeWhile_append_dropWhile (p := blank) (l := spaced)
    have hpart := opens_dropWhile blank spaced
    have hne : spaced.dropWhile blank ≠ [] := fun hnil => hnone (by rw [hnil]; rfl)
    rw [htail] at hspaced hpart
    obtain ⟨after, hafter, hblank⟩ := trim_of_opens hpart
    have hrestne : rest ≠ [] := fun hnil => hempty (by rw [hnil]; rfl)
    have hpartne : trim blank tail ≠ [] := trim_ne_nil (htail ▸ hne) hpart
    constructor
    · refine ⟨text.takeWhile blank, spaced.takeWhile blank, after, ?_, ?_, gap_ne_nil hne hstops,
        ?_, hblank⟩
      · rw [List.append_assoc, ← hafter, List.append_assoc, hspaced, List.append_assoc, hrest, htext]
      · exact fun c hc => List.mem_takeWhile_imp hc
      · exact fun c hc => List.mem_takeWhile_imp hc
    · exact hword ▸ takeWhile_ne_nil hrestne hopens
    · intro c hc
      have hnot := List.mem_takeWhile_imp (hword ▸ hc)
      rwa [Bool.not_eq_true'] at hnot
    · exact hpartne
    · exact opens_of_append hpartne (hafter ▸ hpart)
    · rw [trim, dropWhile_of_opens hpart]
      exact closes_rdropWhile blank tail

theorem splitOnce_of_presents (h : Presents blank text word part) :
    ∃ tail, splitOnce blank text = [word, tail] ∧ trim blank tail = part := by
  obtain ⟨before, gap, after, htext, hbefore, hgapne, hgap, hafter⟩ := h.ex
  have hword : Opens blank (word ++ (gap ++ (part ++ after))) := by
    apply opens_append h.word_ne
    intro c hc
    exact h.word_not c (List.mem_of_mem_head? hc)
  have hstops : Opens (fun c => !blank c) (gap ++ (part ++ after)) := by
    apply opens_append hgapne
    intro c hc
    show (!blank c) = false
    rw [hgap c (List.mem_of_mem_head? hc)]
    rfl
  have hopens : Opens blank (part ++ after) := opens_append h.part_ne h.opens
  have hnot : ∀ c ∈ word, (!blank c) = true := by
    intro c hc
    rw [h.word_not c hc]
    rfl
  have hdrop : text.dropWhile blank = word ++ (gap ++ (part ++ after)) := by
    rw [htext, List.append_assoc, List.append_assoc, List.append_assoc,
      dropWhile_append_of_opens hbefore hword]
  have htake := takeWhile_append_of_opens hnot hstops
  have hspaced := dropWhile_append_of_opens hnot hstops
  have htail := dropWhile_append_of_opens hgap hopens
  refine ⟨part ++ after, ?_, ?_⟩
  · unfold splitOnce
    dsimp only
    rw [hdrop, htake, hspaced, htail, if_neg, if_neg]
    · simp [h.part_ne]
    · simp [h.word_ne]
  · rw [trim, dropWhile_of_opens hopens, rdropWhile_append_of_closes hafter h.closes]

end Splitting

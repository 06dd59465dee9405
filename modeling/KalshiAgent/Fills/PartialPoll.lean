import KalshiAgent.Fills.Polling

/-! Polls that are cut short: the mark moves to the newest fill seen, and the fills of the pages
that were not read may lie below it. -/

namespace KalshiAgent

/-- The answers to a poll over a listing cut into pages, where the call of index `failAt` raises. -/
def listPages (error : ClientError) : List (List Arrival) → Option ℕ → ListFills
  | [], failAt => if failAt = some 0 then .failed error else .last []
  | [p], failAt => if failAt = some 0 then .failed error else .last p
  | p :: q :: ps, failAt =>
    if failAt = some 0 then .failed error
    else .page p (listPages error (q :: ps) (failAt.map Nat.pred))

def unreadPages : List (List Arrival) → Option ℕ → List (List Arrival)
  | [], _ => []
  | p :: ps, failAt =>
    if failAt = some 0 ∨ p = [] then p :: ps else unreadPages ps (failAt.map Nat.pred)

theorem returned_append_unread (error : ClientError) (pages : List (List Arrival))
    (failAt : Option ℕ) :
    (listPages error pages failAt).returned ++ (unreadPages pages failAt).flatten =
      pages.flatten := by
  induction pages generalizing failAt with
  | nil =>
    rw [listPages, unreadPages]
    split_ifs <;> rfl
  | cons p ps ih =>
    by_cases hfail : failAt = some 0
    · cases ps <;> simp [listPages, unreadPages, hfail, ListFills.returned]
    · by_cases hempty : p = []
      · cases ps <;> simp [listPages, unreadPages, hfail, hempty, ListFills.returned]
      · cases ps with
        | nil => simp [listPages, unreadPages, hfail, hempty, ListFills.returned]
        | cons q ps =>
          rw [listPages, if_neg hfail, unreadPages, if_neg (not_or.mpr ⟨hfail, hempty⟩),
            ListFills.returned, List.append_assoc, ih]
          · rfl
          · exact hempty

theorem le_foldl_max {x m : ℤ} {l : List ℤ} : x ≤ l.foldl max m ↔ x ≤ m ∨ ∃ s ∈ l, x ≤ s := by
  induction l generalizing m with
  | nil => simp
  | cons a l ih => simp [ih, or_assoc]

section Cut
variable (env : IngestEnv) (db : Db) (mark : Option ℤ) (pages : List (List Arrival))
  (failAt : Option ℕ) (statusCode : ℕ) (body : String)

def cutPoll : Fetched :=
  fetchAndApply env db mark (fun _ => listPages (.api statusCode body) pages failAt)

/-- Every dated fill of the listing between the old mark and the new one has been applied. -/
def LosesNothing : Prop :=
  ∀ a ∈ pages.flatten, a.fill.createdTime ≠ none → mark.getD 0 ≤ a.second →
    a.second < ((cutPoll env db mark pages failAt statusCode body).highWaterTs).getD 0 →
      (cutPoll env db mark pages failAt statusCode body).db.hasFill a.lookupIdentity = true

instance : Decidable (LosesNothing env db mark pages failAt statusCode body) :=
  inferInstanceAs (Decidable (∀ a ∈ pages.flatten, _))

/-- The condition: a fill of an unread page that lies between the old mark and a second at which
a read fill realized something is stored already, or is one with a read fill. -/
def UnreadCovered : Prop :=
  let read := (listPages (.api statusCode body) pages failAt).returned
  ∀ s ∈ realizedSeconds env.takerRate db read, mark.getD 0 < s →
    ∀ u ∈ (unreadPages pages failAt).flatten, u.fill.createdTime ≠ none → mark.getD 0 ≤ u.second →
      u.second ≤ s → db.hasFill u.lookupIdentity = true ∨
        ∃ a ∈ fresh db.identities read, a.storedIdentity = u.lookupIdentity

end Cut

/-- A poll that returns loses nothing exactly when its unread fills are covered. -/
theorem losesNothing_iff {env : IngestEnv} {db : Db} {mark : Option ℤ} {pages : List (List Arrival)}
    {failAt : Option ℕ} {statusCode : ℕ} {body : String} {n : ℕ}
    (hret : (cutPoll env db mark pages failAt statusCode body).result = .ok n) :
    LosesNothing env db mark pages failAt statusCode body ↔
      UnreadCovered env db mark pages failAt statusCode body := by
  obtain ⟨st, hpage, hdb, hmark⟩ := fetchAndApply_ok hret
  obtain ⟨db', hrun, hbooked, hmax⟩ := ingestPage_books rfl hpage
  have hstored : ∀ i, (cutPoll env db mark pages failAt statusCode body).db.hasFill i = true ↔
      db.hasFill i = true ∨ ∃ a ∈ fresh db.identities
        (listPages (.api statusCode body) pages failAt).returned, a.storedIdentity = i := by
    intro i
    rw [← applyFills_hasFill_iff hrun, ← hasFill_of_booked hbooked]
    exact iff_of_eq (congrArg (fun d : Db => d.hasFill i = true) hdb)
  have hreach : ∀ x, x ≤ st.maxTsSeen ↔ x ≤ mark.getD 0 ∨ ∃ s ∈ realizedSeconds env.takerRate db
      (listPages (.api statusCode body) pages failAt).returned, x ≤ s := by
    intro x
    rw [hmax]
    exact le_foldl_max
  have hnew : (cutPoll env db mark pages failAt statusCode body).highWaterTs =
      if mark.getD 0 < st.maxTsSeen then some (st.maxTsSeen + 1) else mark := hmark
  constructor
  · intro h s hs hlt u hu htime hlow hhigh
    have hle : s ≤ st.maxTsSeen := (hreach s).mpr (.inr ⟨s, hs, le_rfl⟩)
    have hmem : u ∈ pages.flatten := by
      rw [← returned_append_unread (.api statusCode body) pages failAt]
      exact List.mem_append_right _ hu
    refine (hstored _).mp (h u hmem htime hlow ?_)
    rw [hnew, if_pos (hlt.trans_le hle), Option.getD_some]
    omega
  · intro h a ha htime hlow hhigh
    rw [← returned_append_unread (.api statusCode body) pages failAt] at ha
    rcases List.mem_append.mp ha with hread | hunread
    · have hfill := applyFills_hasFill hrun hread htime
      rwa [← hasFill_of_booked hbooked, ← hdb] at hfill
    · rw [hnew] at hhigh
      split_ifs at hhigh with hmoved
      · -- the new mark is past a second that a read fill realized at
        rw [Option.getD_some, Int.lt_add_one_iff] at hhigh
        rcases (hreach st.maxTsSeen).mp le_rfl with hold | ⟨s, hs, hle⟩
        · exact absurd hmoved (not_lt.mpr hold)
        · exact (hstored _).mpr
            (h s hs (hmoved.trans_le hle) a hunread htime hlow (hhigh.trans hle))
      · omega

theorem losesNothing_oldestFirst :
    LosesNothing plainEnv .empty (some 50)
      [[(boughtAt "o1" 100000000).arrival], [(boughtAt "o2" 200000000).arrival]] (some 1) 503 "" := by
  refine (losesNothing_iff (n := 1) (by decide +kernel)).mpr ?_
  intro s hs _ u hu _ _ hle
  have hs100 : s ∈ [100] := by
    have hread : realizedSeconds plainEnv.takerRate .empty (listPages (.api 503 "")
      [[(boughtAt "o1" 100000000).arrival], [(boughtAt "o2" 200000000).arrival]] (some 1)).returned =
        [100] := by decide +kernel
    exact hread ▸ hs
  obtain rfl := List.mem_singleton.mp hs100
  obtain rfl := List.mem_singleton.mp (show u ∈ [(boughtAt "o2" 200000000).arrival] from hu)
  exact absurd hle (by decide)

/-- With the newest page first, the fill of the page that was not read is below the new mark. -/
theorem not_losesNothing_newestFirst :
    ¬ LosesNothing plainEnv .empty (some 50)
      [[(boughtAt "o2" 200000000).arrival], [(boughtAt "o1" 100000000).arrival]] (some 1) 503 "" := by
  decide +kernel

end KalshiAgent

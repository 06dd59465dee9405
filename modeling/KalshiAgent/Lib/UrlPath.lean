import Mathlib.Data.List.Basic
import Mathlib.Data.List.TakeWhile

/-! Paths of absolute URLs, the removal of their dot segments, and percent encoding. A path that goes
on without dot segments goes on unchanged behind its normalized beginning. -/

namespace UrlPath

structure Origin where
  scheme : List Char
  authority : List Char
  scheme_ne_nil : scheme ≠ []
  scheme_chars : ∀ c ∈ scheme, c ∉ [':', '/', '?', '#']
  authority_chars : ∀ c ∈ authority, c ∉ ['/', '?', '#']

def Origin.text (o : Origin) : List Char := o.scheme ++ ':' :: '/' :: '/' :: o.authority

def dropScheme (url : List Char) : List Char :=
  match url.takeWhile (· ∉ [':', '/', '?', '#']), url.dropWhile (· ∉ [':', '/', '?', '#']) with
  | _ :: _, ':' :: rest => rest
  | _, _ => url

def dropAuthority : List Char → List Char
  | '/' :: '/' :: rest => rest.dropWhile (· ∉ ['/', '?', '#'])
  | rest => rest

def urlPath (url : List Char) : List Char :=
  (dropAuthority (dropScheme url)).takeWhile (· ∉ ['?', '#'])

structure IsPath (path : List Char) : Prop where
  rooted : path = [] ∨ path.head? = some '/'
  chars : ∀ c ∈ path, c ∉ ['?', '#']

theorem IsPath.append {path rest : List Char} (hpath : IsPath path) (hrest : IsPath rest) :
    IsPath (path ++ rest) := by
  constructor
  · cases path with
    | nil => exact hrest.rooted
    | cons c cs => exact .inr (hpath.rooted.resolve_left (List.cons_ne_nil c cs))
  · intro c hc
    rcases List.mem_append.mp hc with hc | hc
    · exact hpath.chars c hc
    · exact hrest.chars c hc

theorem dropScheme_origin (o : Origin) (path : List Char) :
    dropScheme (o.text ++ path) = '/' :: '/' :: (o.authority ++ path) := by
  obtain ⟨c, cs, hscheme⟩ := List.exists_cons_of_ne_nil o.scheme_ne_nil
  have hchars : ∀ c ∈ o.scheme, decide (c ∉ [':', '/', '?', '#']) = true := fun c hc =>
    decide_eq_true (o.scheme_chars c hc)
  rw [dropScheme, Origin.text, List.append_assoc, List.takeWhile_append_of_pos hchars,
    List.dropWhile_append_of_pos hchars, hscheme]
  rfl

theorem dropWhile_authority (o : Origin) {path : List Char} (h : IsPath path) :
    (o.authority ++ path).dropWhile (· ∉ ['/', '?', '#']) = path := by
  have hchars : ∀ c ∈ o.authority, decide (c ∉ ['/', '?', '#']) = true := fun c hc =>
    decide_eq_true (o.authority_chars c hc)
  rw [List.dropWhile_append_of_pos hchars]
  rcases h.rooted with rfl | hslash
  · rfl
  · obtain ⟨rest, rfl⟩ := List.head?_eq_some_iff.mp hslash
    rfl

theorem urlPath_origin (o : Origin) {path : List Char} (h : IsPath path) :
    urlPath (o.text ++ path) = path := by
  rw [urlPath, dropScheme_origin, dropAuthority, dropWhile_authority o h]
  apply List.takeWhile_eq_self_iff.mpr
  exact fun c hc => decide_eq_true (h.chars c hc)

def dot : List Char := ['.']

def dotDot : List Char := ['.', '.']

def IsDot (segment : List Char) : Prop := segment = dot ∨ segment = dotDot

instance (segment : List Char) : Decidable (IsDot segment) :=
  inferInstanceAs (Decidable (_ ∨ _))

/-- A segment as it comes: a dot is left out, and two dots take the segment before them, but never
the root. -/
def push (output : List (List Char)) (segment : List Char) : List (List Char) :=
  if segment = dot then output
  else if segment = dotDot then
    if output ≠ [] ∧ output ≠ [[]] then output.dropLast else output
  else output ++ [segment]

def segments (path : List Char) : List (List Char) := path.splitOn '/'

def join (segments : List (List Char)) : List Char := ['/'].intercalate segments

def dropDots (path : List Char) : List Char := join ((segments path).foldl push [])

theorem join_append {xs ys : List (List Char)} (hxs : xs ≠ []) (hys : ys ≠ []) :
    join (xs ++ ys) = join xs ++ '/' :: join ys := by
  induction xs with
  | nil => exact absurd rfl hxs
  | cons x xs ih =>
    cases xs with
    | nil =>
      unfold join
      rw [List.singleton_append, List.intercalate_cons_of_ne_nil hys, List.intercalate_singleton,
        List.append_assoc, List.singleton_append]
    | cons x' xs =>
      have hrest := ih (List.cons_ne_nil _ _)
      unfold join at hrest ⊢
      rw [List.cons_append, List.cons_append, List.intercalate_cons_cons,
        List.intercalate_cons_cons, ← List.cons_append, hrest, List.append_assoc, List.append_assoc,
        List.append_assoc]

@[simp] theorem join_segments (path : List Char) : join (segments path) = path :=
  List.intercalate_splitOn '/'

theorem segments_append (path rest : List Char) :
    segments (path ++ '/' :: rest) = segments path ++ segments rest :=
  List.splitOn_append_cons_self path rest

theorem segments_ne_nil (path : List Char) : segments path ≠ [] := List.splitOn_ne_nil '/' path

theorem segments_of_notMem {path : List Char} (h : '/' ∉ path) : segments path = [path] :=
  List.splitOn_eq_singleton h

theorem slash_notMem {path segment : List Char} (h : segment ∈ segments path) : '/' ∉ segment := by
  induction path generalizing segment with
  | nil =>
    rw [List.mem_singleton.mp h]
    exact List.not_mem_nil
  | cons c cs ih =>
    obtain ⟨first, others, hcs⟩ := List.exists_cons_of_ne_nil (segments_ne_nil cs)
    rw [segments, List.splitOn_cons_eq_if_modifyHead, ← segments, hcs] at h
    rw [hcs] at ih
    split_ifs at h with hslash
    · rcases List.mem_cons.mp h with rfl | hmem
      · exact List.not_mem_nil
      · exact ih hmem
    · rcases List.mem_cons.mp h with rfl | hmem
      · have hfirst := ih List.mem_cons_self
        have hc : '/' ≠ c := fun hc => hslash (by rw [hc, beq_self_eq_true])
        exact fun hin => (List.mem_cons.mp hin).elim hc hfirst
      · exact ih (List.mem_cons_of_mem first hmem)

theorem segments_join {xs : List (List Char)} (hne : xs ≠ []) (h : ∀ x ∈ xs, '/' ∉ x) :
    segments (join xs) = xs :=
  List.splitOn_intercalate '/' h hne

section Fold
variable {output rest : List (List Char)}

theorem push_of_not_isDot {segment : List Char} (h : ¬ IsDot segment) :
    push output segment = output ++ [segment] := by
  obtain ⟨hdot, hdotDot⟩ := not_or.mp h
  rw [push, if_neg hdot, if_neg hdotDot]

theorem mem_push {segment x : List Char} (h : x ∈ push output segment) :
    x ∈ output ∨ (x = segment ∧ ¬ IsDot segment) := by
  unfold push at h
  split_ifs at h with hdot hdotDot hup
  · exact .inl h
  · exact .inl (List.dropLast_subset _ h)
  · exact .inl h
  · rcases List.mem_append.mp h with hold | hnew
    · exact .inl hold
    · exact .inr ⟨List.mem_singleton.mp hnew, not_or.mpr ⟨hdot, hdotDot⟩⟩

theorem foldl_push_of_not_isDot (h : ∀ s ∈ rest, ¬ IsDot s) :
    rest.foldl push output = output ++ rest := by
  induction rest generalizing output with
  | nil => exact (List.append_nil output).symm
  | cons s rest ih =>
    obtain ⟨hs, hrest⟩ := List.forall_mem_cons.mp h
    rw [List.foldl_cons, push_of_not_isDot hs, ih hrest, List.append_assoc]
    rfl

theorem mem_foldl_push {x : List Char} (h : x ∈ rest.foldl push output) :
    x ∈ output ∨ (x ∈ rest ∧ ¬ IsDot x) := by
  induction rest generalizing output with
  | nil => exact .inl h
  | cons s rest ih =>
    rcases ih h with hpush | ⟨hrest, hplain⟩
    · rcases mem_push hpush with hold | ⟨rfl, hplain⟩
      · exact .inl hold
      · exact .inr ⟨List.mem_cons_self, hplain⟩
    · exact .inr ⟨List.mem_cons_of_mem s hrest, hplain⟩

theorem head_push {segment : List Char} (h : output.head? = some []) :
    (push output segment).head? = some [] := by
  obtain ⟨tail, rfl⟩ := List.head?_eq_some_iff.mp h
  unfold push
  split_ifs with hdot hdotDot hup
  · rfl
  · cases tail with
    | nil => exact absurd rfl hup.2
    | cons t ts => rfl
  · rfl
  · rfl

theorem head_foldl_push (h : output.head? = some []) :
    (rest.foldl push output).head? = some [] := by
  induction rest generalizing output with
  | nil => exact h
  | cons s rest ih => exact ih (head_push h)

end Fold

section Rooted
variable {path : List Char}

theorem foldl_ne_nil (h : path.head? = some '/') : (segments path).foldl push [] ≠ [] := by
  obtain ⟨rest, rfl⟩ := List.head?_eq_some_iff.mp h
  have hsegments : segments ('/' :: rest) = [] :: segments rest := segments_append [] rest
  have hhead : ((segments ('/' :: rest)).foldl push []).head? = some [] := by
    rw [hsegments, List.foldl_cons]
    exact head_foldl_push rfl
  intro hnil
  rw [hnil] at hhead
  exact absurd hhead.symm (Option.some_ne_none _)

theorem segments_dropDots (h : path.head? = some '/') :
    segments (dropDots path) = (segments path).foldl push [] := by
  apply segments_join (foldl_ne_nil h)
  intro x hx
  rcases mem_foldl_push hx with hnil | ⟨hmem, _⟩
  · exact absurd hnil List.not_mem_nil
  · exact slash_notMem hmem

theorem not_isDot_of_dropDots (h : path.head? = some '/') {segment : List Char}
    (hmem : segment ∈ segments (dropDots path)) : ¬ IsDot segment := by
  rw [segments_dropDots h] at hmem
  rcases mem_foldl_push hmem with hnil | ⟨_, hplain⟩
  · exact absurd hnil List.not_mem_nil
  · exact hplain

theorem dropDots_append (h : path.head? = some '/') {rest : List Char}
    (hplain : ∀ s ∈ segments rest, ¬ IsDot s) :
    dropDots (path ++ '/' :: rest) = dropDots path ++ '/' :: rest := by
  rw [dropDots, segments_append, List.foldl_append, foldl_push_of_not_isDot hplain,
    join_append (foldl_ne_nil h) (segments_ne_nil rest), join_segments]
  rfl

end Rooted

def hexDigits : List Char := "0123456789ABCDEF".toList

def hexDigit (n : ℕ) : Char := hexDigits.getD n '0'

def escapeByte (b : UInt8) : List Char := ['%', hexDigit (b.toNat / 16), hexDigit (b.toNat % 16)]

section Quote
variable (isSafe : Char → Bool)

def quote (text : List Char) : List Char :=
  text.flatMap fun c => if isSafe c then [c] else (String.utf8EncodeChar c).flatMap escapeByte

variable {isSafe}

theorem quote_cons (c : Char) (cs : List Char) : quote isSafe (c :: cs) =
    (if isSafe c then [c] else (String.utf8EncodeChar c).flatMap escapeByte) ++ quote isSafe cs :=
  List.flatMap_cons

theorem quote_of_safe {text : List Char} (h : ∀ c ∈ text, isSafe c = true) :
    quote isSafe text = text := by
  induction text with
  | nil => rfl
  | cons c cs ih =>
    obtain ⟨hc, hcs⟩ := List.forall_mem_cons.mp h
    rw [quote_cons, if_pos hc, ih hcs]
    rfl

theorem quote_of_percent_notMem {text : List Char} (h : '%' ∉ quote isSafe text) :
    quote isSafe text = text := by
  induction text with
  | nil => rfl
  | cons c cs ih =>
    rw [quote_cons] at h ⊢
    obtain ⟨hc, hcs⟩ := not_or.mp (mt List.mem_append.mpr h)
    rw [ih hcs]
    split_ifs at hc ⊢ with hsafe
    · rfl
    · obtain ⟨b, bs, hbytes⟩ := List.exists_cons_of_ne_nil (@String.utf8EncodeChar_ne_nil c)
      rw [hbytes] at hc
      exact absurd List.mem_cons_self hc

theorem hexDigit_mem (n : ℕ) : hexDigit n ∈ hexDigits := by
  rw [hexDigit, List.getD_eq_getElem?_getD]
  cases hn : hexDigits[n]? with
  | none => decide
  | some c => exact List.mem_of_getElem? hn

theorem mem_quote {text : List Char} {c : Char} (h : c ∈ quote isSafe text) :
    isSafe c = true ∨ c ∈ '%' :: hexDigits := by
  obtain ⟨d, _, hd⟩ := List.mem_flatMap.mp h
  split_ifs at hd with hsafe
  · rw [List.mem_singleton.mp hd]
    exact .inl hsafe
  · obtain ⟨b, _, hb⟩ := List.mem_flatMap.mp hd
    apply Or.inr
    rcases List.mem_cons.mp hb with rfl | hb
    · exact List.mem_cons_self
    rcases List.mem_cons.mp hb with rfl | hb
    · exact List.mem_cons_of_mem '%' (hexDigit_mem _)
    · rw [List.mem_singleton.mp hb]
      exact List.mem_cons_of_mem '%' (hexDigit_mem _)

end Quote

end UrlPath

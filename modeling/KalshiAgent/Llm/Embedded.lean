import KalshiAgent.Llm.OpenRouter

/-! The object in the prose: `_parse_json` on the encoding of an object with text around it. The whole
content is decoded first, so it decides, wherever it is a JSON document of its own. -/

namespace KalshiAgent

def Json.IsObject : Json → Prop
  | .obj _ => True
  | _ => False

/-- `json`, as far as extraction relies on it. -/
structure JsonCodec where
  loads : String → Except PyError Json
  -- the text is an encoding of the value, with nothing around it
  encodes : Json → String → Prop
  loads_encodes : ∀ v text, encodes v text → loads text = .ok v
  encodes_obj : ∀ fields text, encodes (.obj fields) text → ∃ inner, text = "\x7b" ++ inner ++ "\x7d"
  loads_brace : ∀ text v, loads ("\x7b" ++ text) = .ok v → v.IsObject

def NoBraces (text : String) : Prop := '{' ∉ text.toList ∧ '}' ∉ text.toList

instance (text : String) : Decidable (NoBraces text) := inferInstanceAs (Decidable (_ ∧ _))

theorem findIdx?_of_notMem {xs ys : List Char} {c : Char} (h : c ∉ xs) :
    (xs ++ c :: ys).findIdx? (· = c) = some xs.length := by
  have hxs : xs.findIdx? (· = c) = none := by
    rw [List.findIdx?_eq_none_iff]
    intro x hx
    exact decide_eq_false (fun heq => h (heq ▸ hx))
  rw [List.findIdx?_append, hxs, List.findIdx?_cons]
  simp

theorem embedded_eq {p q : String} (hp : NoBraces p) (hq : NoBraces q) (inner : String) :
    embedded (p ++ ("\x7b" ++ inner ++ "\x7d") ++ q) = some ("\x7b" ++ inner ++ "\x7d") := by
  have hobject : ("\x7b" ++ inner ++ "\x7d").toList = '{' :: (inner.toList ++ ['}']) := by
    simp
  have hchars : (p ++ ("\x7b" ++ inner ++ "\x7d") ++ q).toList =
      (p.toList ++ ("\x7b" ++ inner ++ "\x7d").toList) ++ q.toList := by
    simp
  have hfront : (p.toList ++ ("\x7b" ++ inner ++ "\x7d").toList ++ q.toList).findIdx? (· = '{') =
      some p.toList.length := by
    rw [hobject, List.append_assoc]
    exact findIdx?_of_notMem hp.1
  have hback : (p.toList ++ ("\x7b" ++ inner ++ "\x7d").toList ++ q.toList).reverse.findIdx? (· = '}') =
      some q.toList.length := by
    have hlast : '}' ∉ q.toList.reverse := fun h => hq.2 (List.mem_reverse.mp h)
    rw [hobject, List.reverse_append, List.reverse_append, List.reverse_cons, List.reverse_append]
    have hfind := @findIdx?_of_notMem _ (inner.toList.reverse ++ ['{'] ++ p.toList.reverse) _ hlast
    rw [List.length_reverse] at hfind
    exact hfind
  have hstop : (p.toList ++ ("\x7b" ++ inner ++ "\x7d").toList ++ q.toList).length - 1 - q.toList.length + 1 =
      (p.toList ++ ("\x7b" ++ inner ++ "\x7d").toList).length := by
    rw [hobject]
    simp only [List.length_append, List.length_cons, List.length_nil]
    omega
  have hlt : p.toList.length < (p.toList ++ ("\x7b" ++ inner ++ "\x7d").toList ++ q.toList).length - 1 -
      q.toList.length := by
    rw [hobject]
    simp only [List.length_append, List.length_cons, List.length_nil]
    omega
  unfold embedded
  rw [hchars]
  dsimp only
  rw [hfront, hback]
  dsimp only
  rw [if_pos hlt, hstop, List.take_left, List.drop_left, String.ofList_toList]

theorem embedded_brace {content text : String} (h : embedded content = some text) :
    ∃ rest, text = "\x7b" ++ rest := by
  unfold embedded at h
  dsimp only at h
  cases hfront : content.toList.findIdx? (· = '{') with
  | none => simp [hfront] at h
  | some start =>
    cases hback : content.toList.reverse.findIdx? (· = '}') with
    | none => simp [hfront, hback] at h
    | some back =>
      simp only [hfront, hback] at h
      split_ifs at h with hlt
      obtain ⟨hstart, hbrace, _⟩ := List.findIdx?_eq_some_iff_getElem.mp hfront
      have hin : start < (content.toList.take (content.toList.length - 1 - back + 1)).length := by
        rw [List.length_take]
        omega
      rw [List.drop_eq_getElem_cons hin, List.getElem_take, of_decide_eq_true hbrace] at h
      generalize (content.toList.take (content.toList.length - 1 - back + 1)).drop (start + 1) = rest at h
      refine ⟨String.ofList rest, (Option.some.inj h).symm.trans ?_⟩
      apply String.toList_inj.mp
      simp only [String.toList_ofList, String.toList_append]
      rfl

section Parse
variable (codec : JsonCodec)

theorem parseJson_isObject_iff (content : String) :
    (∀ v, parseJson codec.loads content = .ok v → v.IsObject) ↔
      ∀ v, codec.loads content = .ok v → v.IsObject := by
  unfold parseJson
  cases hwhole : codec.loads content with
  | ok value => simp
  | error e =>
    refine iff_of_true ?_ nofun
    intro v hv
    cases e with
    | jsonDecodeError =>
      dsimp only at hv
      cases hcut : embedded content with
      | none => simp [hcut] at hv
      | some text =>
        obtain ⟨rest, rfl⟩ := embedded_brace hcut
        cases hloads : codec.loads ("\x7b" ++ rest) with
        | ok decoded =>
          simp only [hcut, Option.map_some, hloads] at hv
          cases hv
          exact codec.loads_brace rest _ hloads
        | error e =>
          simp only [hcut, Option.map_some, hloads] at hv
          cases e <;> cases hv
    | _ => cases hv

theorem parseJson_embedded_iff {p q text : String} {fields : List (String × Json)}
    (hp : NoBraces p) (hq : NoBraces q) (htext : codec.encodes (.obj fields) text) :
    parseJson codec.loads (p ++ text ++ q) = .ok (.obj fields) ↔
      codec.loads (p ++ text ++ q) = .error .jsonDecodeError ∨
        codec.loads (p ++ text ++ q) = .ok (.obj fields) := by
  obtain ⟨inner, rfl⟩ := codec.encodes_obj fields text htext
  have hloads := codec.loads_encodes _ _ htext
  unfold parseJson
  rw [embedded_eq hp hq inner, Option.map_some, hloads]
  cases codec.loads (p ++ ("\x7b" ++ inner ++ "\x7d") ++ q) with
  | ok value => simp
  | error e => cases e <;> simp

end Parse

/-- Extraction gives the embedded object, and objects only. -/
structure Extracts (codec : JsonCodec) : Prop where
  embedded : ∀ p q text fields, NoBraces p → NoBraces q → codec.encodes (.obj fields) text →
    parseJson codec.loads (p ++ text ++ q) = .ok (.obj fields)
  object : ∀ content v, parseJson codec.loads content = .ok v → v.IsObject

/-- For every object with text around it, and for every content: extraction gives the object, and
nothing but an object, exactly when the whole content does not decode to anything else. -/
theorem parseJson_extracts_iff (codec : JsonCodec) :
    (∀ p q text fields, NoBraces p → NoBraces q → codec.encodes (.obj fields) text →
      (parseJson codec.loads (p ++ text ++ q) = .ok (.obj fields) ↔
        codec.loads (p ++ text ++ q) = .error .jsonDecodeError ∨
          codec.loads (p ++ text ++ q) = .ok (.obj fields))) ∧
      ∀ content, (∀ v, parseJson codec.loads content = .ok v → v.IsObject) ↔
        ∀ v, codec.loads content = .ok v → v.IsObject :=
  ⟨fun _ _ _ _ hp hq htext => parseJson_embedded_iff codec hp hq htext,
    fun content => parseJson_isObject_iff codec content⟩

def emptyObjects : JsonCodec where
  loads text :=
    if text = "\x7b\x7d" then .ok (.obj [])
    else if text = "[\x7b\x7d]" then .ok (.arr [.obj []])
    else .error .jsonDecodeError
  encodes v text := v = .obj [] ∧ text = "\x7b\x7d"
  loads_encodes := by
    rintro v text ⟨rfl, rfl⟩
    rfl
  encodes_obj := by
    rintro fields text ⟨_, rfl⟩
    exact ⟨"", rfl⟩
  loads_brace := by
    intro text v h
    split_ifs at h with hobject hlist
    · cases h
      trivial
    · have hhead := congrArg (fun t => t.toList.head?) hlist
      simp at hhead

/-- Brackets around the object make the content a list, which is returned. -/
theorem not_extracts_brackets : ¬ ∀ codec, Extracts codec := by
  intro h
  have hparse := (h emptyObjects).embedded "[" "]" "\x7b\x7d" [] (by decide +kernel) (by decide +kernel)
    ⟨rfl, rfl⟩
  have hlist : parseJson emptyObjects.loads ("[" ++ "\x7b\x7d" ++ "]") = .ok (.arr [.obj []]) := rfl
  rw [hlist] at hparse
  cases hparse

theorem parseJson_extracts_prose :
    parseJson emptyObjects.loads ("Here is the JSON: " ++ "\x7b\x7d" ++ " that's it") = .ok (.obj []) :=
  ((parseJson_extracts_iff emptyObjects).1 "Here is the JSON: " " that's it" "\x7b\x7d" []
    (by decide +kernel) (by decide +kernel) ⟨rfl, rfl⟩).mpr (.inl rfl)

end KalshiAgent

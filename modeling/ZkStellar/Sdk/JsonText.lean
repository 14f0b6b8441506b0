import ZkStellar.Lib.Reading
import ZkStellar.Sdk.Json

set_option autoImplicit false

/-! # JSON texts are read in one way

Two values that print alike are the same value, if they hold nothing that JSON has no text for
(`stringify_inj`): strings are escaped character by character, the characters of a numeral are none
of those that end one, and the members of an array or an object stand between separators. -/

namespace ZkStellar.Sdk

open Reading (Follows Apart)

/-! ## Strings -/

/-- The characters that have an escape of two characters, by their codes, with its second one. -/
def shortEscapes : List (ℕ × Char) :=
  [(0x08, 'b'), (0x09, 't'), (0x0a, 'n'), (0x0c, 'f'), (0x0d, 'r'), (0x22, '"'), (0x5c, '\\')]

/-- A character stands for itself, has a short escape, or is written in hexadecimal. -/
theorem escape_cases (c : Char) :
    (escape c = [c] ∧ c ≠ '"' ∧ c ≠ '\\') ∨
      (∃ l, escape c = ['\\', l] ∧ (c.toNat, l) ∈ shortEscapes) ∨
      escape c = '\\' :: 'u' :: '0' :: '0' :: hexPair (UInt8.ofNat c.toNat) ∧ c.toNat < 0x20 := by
  unfold escape
  split_ifs with h1 h2 h3 h4 h5 h6 h7 h8
  · exact .inr (.inl ⟨'b', rfl, by simp [shortEscapes, h1]⟩)
  · exact .inr (.inl ⟨'t', rfl, by simp [shortEscapes, h2]⟩)
  · exact .inr (.inl ⟨'n', rfl, by simp [shortEscapes, h3]⟩)
  · exact .inr (.inl ⟨'f', rfl, by simp [shortEscapes, h4]⟩)
  · exact .inr (.inl ⟨'r', rfl, by simp [shortEscapes, h5]⟩)
  · exact .inr (.inl ⟨'"', rfl, by simp [shortEscapes, h6]⟩)
  · exact .inr (.inl ⟨'\\', rfl, by simp [shortEscapes, h7]⟩)
  · exact .inr (.inr ⟨rfl, h8⟩)
  · refine .inl ⟨rfl, ?_, ?_⟩
    · intro hc
      exact h6 (hc ▸ rfl)
    · intro hc
      exact h7 (hc ▸ rfl)

theorem shortEscapes_inj : ∀ p ∈ shortEscapes, ∀ q ∈ shortEscapes, p.2 = q.2 → p.1 = q.1 := by
  decide

theorem ne_u_of_mem_shortEscapes {n : ℕ} {l : Char} (hmem : (n, l) ∈ shortEscapes) : l ≠ 'u' := by
  have hall : ∀ p ∈ shortEscapes, p.2 ≠ 'u' := by decide
  exact hall _ hmem

/-- Two characters whose hexadecimal escapes agree. -/
theorem toNat_eq_of_hexPair {m n : ℕ} (hm : m < 0x20) (hn : n < 0x20)
    (heq : hexPair (UInt8.ofNat m) = hexPair (UInt8.ofNat n)) : m = n := by
  have hbytes := congrArg hexBytes heq
  have hone : ∀ b : UInt8, hexBytes (hexPair b) = [b] := by
    intro b
    simpa using hexBytes_flatMap_hexPair [b]
  rw [hone, hone, List.cons.injEq] at hbytes
  have hnat := congrArg UInt8.toNat hbytes.1
  rwa [UInt8.toNat_ofNat', UInt8.toNat_ofNat', Nat.mod_eq_of_lt (by omega),
    Nat.mod_eq_of_lt (by omega)] at hnat

/-- The escapes of two characters are read apart, whatever follows. -/
theorem apart_escape (c d : Char) : Apart escape (fun _ => True) c d := by
  intro r r' _ _ heq
  rcases escape_cases c with ⟨hc, hquote, hslash⟩ | ⟨l, hc, hl⟩ | ⟨hc, hlt⟩ <;>
    rcases escape_cases d with ⟨hd, hquote', hslash'⟩ | ⟨l', hd, hl'⟩ | ⟨hd, hlt'⟩ <;>
    rw [hc, hd] at heq
  · exact ⟨List.head_eq_of_cons_eq heq, List.tail_eq_of_cons_eq heq⟩
  · exact absurd (List.head_eq_of_cons_eq heq) hslash
  · exact absurd (List.head_eq_of_cons_eq heq) hslash
  · exact absurd (List.head_eq_of_cons_eq heq).symm hslash'
  · have htail := List.tail_eq_of_cons_eq heq
    have hcode := shortEscapes_inj _ hl _ hl' (List.head_eq_of_cons_eq htail)
    exact ⟨Char.toNat_inj.1 hcode, List.tail_eq_of_cons_eq htail⟩
  · have htail := List.tail_eq_of_cons_eq heq
    exact absurd (List.head_eq_of_cons_eq htail) (ne_u_of_mem_shortEscapes hl)
  · exact absurd (List.head_eq_of_cons_eq heq).symm hslash'
  · have htail := List.tail_eq_of_cons_eq heq
    exact absurd (List.head_eq_of_cons_eq htail).symm (ne_u_of_mem_shortEscapes hl')
  · obtain ⟨hword, hrest⟩ := List.append_inj heq rfl
    have hpair : hexPair (UInt8.ofNat c.toNat) = hexPair (UInt8.ofNat d.toNat) :=
      congrArg (List.drop 4) hword
    exact ⟨Char.toNat_inj.1 (toNat_eq_of_hexPair hlt hlt' hpair), hrest⟩

/-- No escape starts with the quote that ends a string. -/
theorem escape_ne_quote (c : Char) (r r' : List Char) : escape c ++ r ≠ '"' :: r' := by
  intro heq
  rcases escape_cases c with ⟨hc, hquote, -⟩ | ⟨l, hc, -⟩ | ⟨hc, -⟩ <;> rw [hc] at heq
  · exact hquote (List.head_eq_of_cons_eq heq)
  · exact absurd (List.head_eq_of_cons_eq heq) (by decide)
  · exact absurd (List.head_eq_of_cons_eq heq) (by decide)

/-- Strings are read apart whatever follows. -/
theorem quote_inj {s t : String} {r r' : List Char} (heq : quote s ++ r = quote t ++ r') :
    s = t ∧ r = r' := by
  have hs : ∀ (s : String) (r : List Char),
      quote s ++ r = '"' :: (s.toList.flatMap escape ++ '"' :: r) := by
    intro s r
    simp [quote]
  rw [hs, hs] at heq
  obtain ⟨hlist, hrest⟩ :=
    Reading.flatMap_inj apart_escape escape_ne_quote (List.tail_eq_of_cons_eq heq)
  exact ⟨String.toList_inj.1 hlist, hrest⟩

/-! ## Values -/

/-- The characters of a numeral. -/
def numeralChars : List Char :=
  ['-', '+', '.', 'e', '0', '1', '2', '3', '4', '5', '6', '7', '8', '9']

/-- Some numbers are printed with the characters of a numeral, and no two of them alike. -/
structure PrintsApart (numeral : ℚ → String) (numbers : Set ℚ) : Prop where
  injOn : Set.InjOn numeral numbers
  printed : ∀ q ∈ numbers, numeral q ≠ ""
  chars : ∀ q ∈ numbers, ∀ c ∈ (numeral q).toList, c ∈ numeralChars

/-- A value that JSON has a text for, with its numbers among the given ones. -/
inductive Plain (numbers : Set ℚ) : JsValue → Prop where
  | null : Plain numbers .null
  | boolean (b : Bool) : Plain numbers (.boolean b)
  | number {q : ℚ} (hq : q ∈ numbers) : Plain numbers (.number (.finite q))
  | string (s : String) : Plain numbers (.string s)
  | array {elems : List JsValue} (helems : ∀ v ∈ elems, Plain numbers v) :
      Plain numbers (.array elems)
  | object {props : List (String × JsValue)} (hprops : ∀ p ∈ props, Plain numbers p.2) :
      Plain numbers (.object props)

/-- What may follow a value in a JSON text. -/
def EndsValue (c : Char) : Prop := c ∈ [',', ']', '\x7d']

/-- The kinds of values that JSON has texts for. -/
inductive JsonKind where
  | null
  | boolean
  | number
  | string
  | array
  | object
deriving DecidableEq

/-- The kind of a value; `undefined` prints as `null`. -/
def JsValue.kind : JsValue → JsonKind
  | .undefined | .null => .null
  | .boolean _ => .boolean
  | .number _ => .number
  | .string _ => .string
  | .array _ => .array
  | .object _ => .object

/-- The kind of the values whose texts start with a character. -/
def kindOfFirst (c : Char) : Option JsonKind :=
  if c = 'n' then some .null
  else if c = 't' ∨ c = 'f' then some .boolean
  else if c ∈ numeralChars then some .number
  else if c = '"' then some .string
  else if c = '[' then some .array
  else if c = '\x7b' then some .object
  else none

theorem kindOfFirst_of_mem : ∀ c ∈ numeralChars, kindOfFirst c = some .number := by
  simp [numeralChars, kindOfFirst]

/-- The text of a property. -/
def memberText (numeral : ℚ → String) (depth : ℕ) (p : String × JsValue) : List Char :=
  quote p.1 ++ ':' :: jsonText numeral false depth p.2

/-- What may follow a numeral does not continue it. -/
theorem follows_numeral {r : List Char} (hr : Follows EndsValue r) :
    Follows (fun c => decide (c ∈ numeralChars) = false) r := by
  have hends : ∀ c ∈ [',', ']', '\x7d'], decide (c ∈ numeralChars) = false := by
    simp [numeralChars]
  intro c hc
  exact hends c (hr c hc)

section

variable {numeral : ℚ → String} {numbers : Set ℚ}

theorem enclose_false (depth : ℕ) (opening closing : Char) (members : List (List Char)) :
    enclose false depth opening closing members
      = opening :: (List.intercalate [','] members ++ [closing]) := by
  rw [enclose]
  rcases members with _ | ⟨w, ws⟩
  · rfl
  · rfl

theorem elementTexts_eq_map (depth : ℕ) (elems : List JsValue) :
    elementTexts numeral false depth elems = elems.map (jsonText numeral false depth) := by
  induction elems with
  | nil => rw [elementTexts, List.map_nil]
  | cons v vs ih => rw [elementTexts, ih, List.map_cons]

/-- No property is left out if none is `undefined`. -/
theorem memberTexts_eq_map {depth : ℕ} {props : List (String × JsValue)}
    (hprops : ∀ p ∈ props, Plain numbers p.2) :
    memberTexts numeral false depth props = props.map (memberText numeral depth) := by
  induction props with
  | nil => rw [memberTexts, List.map_nil]
  | cons p props ih =>
      obtain ⟨name, v⟩ := p
      have hdefined : v ≠ .undefined := by
        intro hundefined
        have hv : Plain numbers v := hprops _ List.mem_cons_self
        rw [hundefined] at hv
        cases hv
      rw [memberTexts.eq_3 _ _ _ _ _ _ hdefined, List.map_cons,
        ih fun p hp => hprops p (List.mem_cons_of_mem _ hp), memberText]
      simp

/-- The text of an array, in front of a rest. -/
theorem jsonText_array (depth : ℕ) (elems : List JsValue) (r : List Char) :
    jsonText numeral false depth (.array elems) ++ r
      = '[' :: (List.intercalate [','] (elems.map (jsonText numeral false (depth + 1)))
        ++ ']' :: r) := by
  rw [jsonText, enclose_false, elementTexts_eq_map]
  simp

theorem jsonText_object {depth : ℕ} {props : List (String × JsValue)}
    (hprops : ∀ p ∈ props, Plain numbers p.2) (r : List Char) :
    jsonText numeral false depth (.object props) ++ r
      = '\x7b' :: (List.intercalate [','] (props.map (memberText numeral (depth + 1)))
        ++ '\x7d' :: r) := by
  rw [jsonText, enclose_false, memberTexts_eq_map hprops]
  simp

variable (hnum : PrintsApart numeral numbers)

include hnum

/-- Every value has a text, whose first character tells what kind of value it is. -/
theorem exists_head_jsonText {v : JsValue} (hv : Plain numbers v) (depth : ℕ) (r : List Char) :
    ∃ c cs, jsonText numeral false depth v ++ r = c :: cs ∧ kindOfFirst c = some v.kind := by
  rcases hv with _ | b | @⟨q, hq⟩ | s | helems | hprops
  · exact ⟨'n', _, rfl, by decide⟩
  · rcases b with _ | _
    · exact ⟨'f', _, rfl, rfl⟩
    · exact ⟨'t', _, rfl, rfl⟩
  · have hprinted : (numeral q).toList ≠ [] := by
      intro hempty
      exact hnum.printed q hq (String.toList_eq_nil_iff.1 hempty)
    obtain ⟨c, cs, hcs⟩ := List.exists_cons_of_ne_nil hprinted
    refine ⟨c, cs ++ r, ?_, kindOfFirst_of_mem c (hnum.chars q hq c (hcs ▸ List.mem_cons_self))⟩
    rw [jsonText, hcs, List.cons_append]
  · exact ⟨'"', _, rfl, rfl⟩
  · exact ⟨'[', _, jsonText_array _ _ _, rfl⟩
  · exact ⟨'\x7b', _, jsonText_object hprops _, rfl⟩

/-- Values with the same text are of one kind. -/
theorem kind_eq_of_jsonText {v w : JsValue} (hv : Plain numbers v) (hw : Plain numbers w)
    {depth : ℕ} {r r' : List Char}
    (heq : jsonText numeral false depth v ++ r = jsonText numeral false depth w ++ r') :
    v.kind = w.kind := by
  obtain ⟨c, cs, hc, hkind⟩ := exists_head_jsonText hnum hv depth r
  obtain ⟨d, ds, hd, hkind'⟩ := exists_head_jsonText hnum hw depth r'
  rw [hc, hd] at heq
  rw [List.head_eq_of_cons_eq heq, hkind'] at hkind
  exact (Option.some.inj hkind).symm

/-- No value starts with the bracket that ends an array. -/
theorem jsonText_ne_bracket {v : JsValue} (hv : Plain numbers v) (depth : ℕ) (r r' : List Char) :
    jsonText numeral false depth v ++ r ≠ ']' :: r' := by
  intro heq
  obtain ⟨c, cs, hc, hkind⟩ := exists_head_jsonText hnum hv depth r
  rw [hc] at heq
  rw [List.head_eq_of_cons_eq heq] at hkind
  exact absurd hkind (by simp [kindOfFirst, numeralChars])

/-- The texts of two values are read apart. -/
theorem apart_jsonText {v w : JsValue} (hv : Plain numbers v) (hw : Plain numbers w) (depth : ℕ) :
    Apart (jsonText numeral false depth) EndsValue v w := by
  induction hv generalizing w depth with
  | null =>
      intro r r' _ _ heq
      have hkind := kind_eq_of_jsonText hnum .null hw heq
      rcases hw with _ | _ | _ | _ | _ | _ <;> try cases hkind
      exact ⟨rfl, List.append_cancel_left heq⟩
  | boolean b =>
      intro r r' _ _ heq
      have hkind := kind_eq_of_jsonText hnum (.boolean b) hw heq
      rcases hw with _ | b' | _ | _ | _ | _ <;> try cases hkind
      rcases b with _ | _ <;> rcases b' with _ | _
      · exact ⟨rfl, List.append_cancel_left heq⟩
      · exact absurd (List.head_eq_of_cons_eq heq) (by decide)
      · exact absurd (List.head_eq_of_cons_eq heq) (by decide)
      · exact ⟨rfl, List.append_cancel_left heq⟩
  | @number q hq =>
      intro r r' hr hr' heq
      have hkind := kind_eq_of_jsonText hnum (.number hq) hw heq
      rcases hw with _ | _ | @⟨q', hq'⟩ | _ | _ | _ <;> try cases hkind
      have hchars : ∀ {q}, q ∈ numbers → ∀ c ∈ (numeral q).toList,
          decide (c ∈ numeralChars) = true :=
        fun hq c hc => decide_eq_true (hnum.chars _ hq c hc)
      rw [jsonText, jsonText] at heq
      obtain ⟨hword, hrest⟩ := Reading.eq_of_run (hchars hq) (hchars hq') (follows_numeral hr)
        (follows_numeral hr') heq
      rw [hnum.injOn hq hq' (String.toList_inj.1 hword)]
      exact ⟨rfl, hrest⟩
  | string s =>
      intro r r' _ _ heq
      have hkind := kind_eq_of_jsonText hnum (.string s) hw heq
      rcases hw with _ | _ | _ | t | _ | _ <;> try cases hkind
      rw [jsonText, jsonText] at heq
      obtain ⟨rfl, hrest⟩ := quote_inj heq
      exact ⟨rfl, hrest⟩
  | @array elems helems ih =>
      intro r r' _ _ heq
      have hkind := kind_eq_of_jsonText hnum (.array helems) hw heq
      rcases hw with _ | _ | _ | _ | @⟨elems', helems'⟩ | _ <;> try cases hkind
      rw [jsonText_array, jsonText_array] at heq
      obtain ⟨rfl, hrest⟩ := Reading.intercalate_inj (by decide) (by simp [EndsValue])
        (by simp [EndsValue]) (fun x hx y hy => ih x hx (helems' y hy) (depth + 1))
        (fun x hx => jsonText_ne_bracket hnum (helems x hx) (depth + 1))
        (fun y hy => jsonText_ne_bracket hnum (helems' y hy) (depth + 1))
        (List.tail_eq_of_cons_eq heq)
      exact ⟨rfl, hrest⟩
  | @object props hprops ih =>
      intro r r' _ _ heq
      have hkind := kind_eq_of_jsonText hnum (.object hprops) hw heq
      rcases hw with _ | _ | _ | _ | _ | @⟨props', hprops'⟩ <;> try cases hkind
      rw [jsonText_object hprops, jsonText_object hprops'] at heq
      have hmember : ∀ p ∈ props, ∀ p' ∈ props',
          Apart (memberText numeral (depth + 1)) EndsValue p p' := by
        intro p hp p' hp' r r' hr hr' heq
        rw [memberText, memberText, List.append_assoc, List.append_assoc] at heq
        obtain ⟨hname, htail⟩ := quote_inj heq
        obtain ⟨hvalue, hrest⟩ := ih p hp (hprops' p' hp') (depth + 1) r r' hr hr'
          (List.tail_eq_of_cons_eq htail)
        exact ⟨Prod.ext hname hvalue, hrest⟩
      have hbrace : ∀ (p : String × JsValue) (r r' : List Char),
          memberText numeral (depth + 1) p ++ r ≠ '\x7d' :: r' := by
        intro p r r' heq
        exact absurd (List.head_eq_of_cons_eq heq) (by decide)
      obtain ⟨rfl, hrest⟩ := Reading.intercalate_inj (by decide) (by simp [EndsValue])
        (by simp [EndsValue]) hmember (fun p _ => hbrace p) (fun p _ => hbrace p)
        (List.tail_eq_of_cons_eq heq)
      exact ⟨rfl, hrest⟩

end

/-- Two values that print alike are the same value. -/
theorem stringify_inj {rt : Runtime} {numbers : Set ℚ} (hnum : PrintsApart rt.numeral numbers)
    {v w : JsValue} (hv : Plain numbers v) (hw : Plain numbers w)
    (heq : rt.stringify false v = rt.stringify false w) : v = w := by
  have htext := String.ofList_injective heq
  exact (apart_jsonText hnum hv hw 0 [] [] Reading.follows_nil Reading.follows_nil (by
    rw [List.append_nil, List.append_nil, htext])).1

end ZkStellar.Sdk

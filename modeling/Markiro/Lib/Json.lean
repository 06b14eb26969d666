import Mathlib

/-!
# JSON values and their compact text

Values, the canonical order of an object's members, and the compact text of a value. The text is
injective (`text_injective`), so a digest of it identifies the value.

1. A number's text has number characters only, so it ends where the next delimiter stands
   (`number_splits`).
2. The escape of one character decodes to that character and the rest (`unescape_escape`), so a
   quoted string ends at its closing quote (`quoted_splits`).
3. Every value's text is a prefix code before a delimiter (`text_splits`): the first character
   gives the kind of the value, and the induction is on the value.
-/

namespace Json

/-- The characters a number is written with. -/
def isNumberChar (c : Char) : Bool :=
  c.isDigit || c == '-' || c == '+' || c == '.' || c == 'e' || c == 'E'

/-- The characters only a double's text has. -/
def isFraction (c : Char) : Bool := c == '.' || c == 'e'

/-- The shortest decimal text of a finite double: number characters, among them a point or an
exponent, which no integer's text has. -/
structure FloatText where
  chars : List Char
  number : chars.all isNumberChar = true
  fraction : chars.any isFraction = true
  deriving DecidableEq

/-- A number: a natural number, a negative integer `-(n + 1)`, or a double by its text. -/
inductive Number where
  | nat (n : ℕ)
  | neg (n : ℕ)
  | float (t : FloatText)
  deriving DecidableEq

end Json

/-- A JSON value; an object's members stand in the order they were written in. -/
inductive Json where
  | null
  | bool (b : Bool)
  | number (n : Json.Number)
  | str (s : String)
  | arr (xs : List Json)
  | obj (ms : List (String × Json))

namespace Json

/-! ## Canonical order -/

/-- Put a member where its key belongs; a member of the same key is replaced. -/
def insertMember (k : String) (v : Json) : List (String × Json) → List (String × Json)
  | [] => [(k, v)]
  | (k', v') :: ms =>
    if k < k' then (k, v) :: (k', v') :: ms
    else if k = k' then (k, v) :: ms
    else (k', v') :: insertMember k v ms

mutual

/-- The value with every object's members in the order of their keys, a repeated key keeping
its last value. -/
def canon : Json → Json
  | .arr xs => .arr (canonElements xs)
  | .obj ms => .obj (canonMembers ms [])
  | v => v

def canonElements : List Json → List Json
  | [] => []
  | v :: vs => canon v :: canonElements vs

def canonMembers : List (String × Json) → List (String × Json) → List (String × Json)
  | [], done => done
  | (k, v) :: ms, done => canonMembers ms (insertMember k (canon v) done)

end

/-! ## Compact text -/

def Number.text : Number → List Char
  | .nat n => Nat.toDigits 10 n
  | .neg n => '-' :: Nat.toDigits 10 (n + 1)
  | .float t => t.chars

/-- One hexadecimal digit, lower case. -/
def hexDigit (n : ℕ) : Char := Nat.digitChar n

/-- One character of a string's text: the quote, the backslash and the control characters are
escaped. -/
def escape (c : Char) : List Char :=
  if c = '"' then ['\\', '"']
  else if c = '\\' then ['\\', '\\']
  else if c = '\x08' then ['\\', 'b']
  else if c = '\x0c' then ['\\', 'f']
  else if c = '\n' then ['\\', 'n']
  else if c = '\r' then ['\\', 'r']
  else if c = '\t' then ['\\', 't']
  else if c.toNat < 32 then ['\\', 'u', '0', '0', hexDigit (c.toNat / 16), hexDigit (c.toNat % 16)]
  else [c]

/-- A string's text after its opening quote. -/
def escapeAll : List Char → List Char
  | [] => ['"']
  | c :: cs => escape c ++ escapeAll cs

def quoted (s : String) : List Char := '"' :: escapeAll s.toList

mutual

/-- The compact text of a value. -/
def chars : Json → List Char
  | .null => ['n', 'u', 'l', 'l']
  | .bool true => ['t', 'r', 'u', 'e']
  | .bool false => ['f', 'a', 'l', 's', 'e']
  | .number n => n.text
  | .str s => quoted s
  | .arr [] => ['[', ']']
  | .arr (v :: vs) => '[' :: (chars v ++ elementChars vs)
  | .obj [] => ['{', '}']
  | .obj ((k, v) :: ms) => '{' :: (quoted k ++ ':' :: (chars v ++ memberChars ms))

def elementChars : List Json → List Char
  | [] => [']']
  | v :: vs => ',' :: (chars v ++ elementChars vs)

def memberChars : List (String × Json) → List Char
  | [] => ['}']
  | (k, v) :: ms => ',' :: (quoted k ++ ':' :: (chars v ++ memberChars ms))

end

/-- The compact text of a value, as a string. -/
def text (v : Json) : String := String.ofList (chars v)

/-! ## Numbers -/

theorem isNumberChar_of_isDigit {c : Char} (h : c.isDigit = true) : isNumberChar c = true := by
  simp [isNumberChar, h]

theorem toDigits_number (n : ℕ) : ∀ c ∈ Nat.toDigits 10 n, isNumberChar c = true :=
  fun _ h => isNumberChar_of_isDigit (Nat.isDigit_of_mem_toDigits (by decide) (by decide) h)

theorem Number.text_number (n : Number) : ∀ c ∈ n.text, isNumberChar c = true := by
  cases n with
  | nat n => exact toDigits_number n
  | neg n =>
    intro c hc
    rcases List.mem_cons.1 hc with rfl | hc
    · decide
    · exact toDigits_number _ c hc
  | float t => exact fun c hc => List.all_eq_true.1 t.number c hc

theorem toDigits_injective {m n : ℕ} (h : Nat.toDigits 10 m = Nat.toDigits 10 n) : m = n := by
  have h' := congrArg (fun cs => Nat.ofDigitChars 10 cs 0) h
  simpa [Nat.ofDigitChars_ten_toDigits] using h'

theorem toDigits_ne_nil (n : ℕ) : Nat.toDigits 10 n ≠ [] :=
  List.ne_nil_of_length_pos Nat.length_toDigits_pos

theorem dash_notMem_toDigits (n : ℕ) : '-' ∉ Nat.toDigits 10 n := fun h =>
  absurd (Nat.isDigit_of_mem_toDigits (by decide) (by decide) h) (by decide)

theorem toDigits_no_fraction (n : ℕ) : (Nat.toDigits 10 n).any isFraction = false := by
  rw [List.any_eq_false]
  intro c hc h
  have hd := Nat.isDigit_of_mem_toDigits (by decide) (by decide) hc
  rcases (Bool.or_eq_true _ _).mp h with h | h <;>
  · rw [beq_iff_eq] at h
    subst h
    exact absurd hd (by decide)

theorem neg_no_fraction (n : ℕ) : (Number.neg n).text.any isFraction = false := by
  rw [Number.text, List.any_cons, toDigits_no_fraction]
  rfl

theorem Number.text_ne_nil (n : Number) : n.text ≠ [] := by
  cases n with
  | nat n => exact toDigits_ne_nil n
  | neg n => exact List.cons_ne_nil _ _
  | float t =>
    intro h
    have hf := t.fraction
    rw [show t.chars = [] from h] at hf
    exact absurd hf (by decide)

theorem nat_text_ne_neg_text (m n : ℕ) : (Number.nat m).text ≠ (Number.neg n).text := by
  intro h
  have hd : '-' ∈ (Number.nat m).text := by rw [h]; exact List.mem_cons_self
  exact dash_notMem_toDigits m hd

theorem text_ne_float_text {a : Number} (ha : a.text.any isFraction = false) (t : FloatText) :
    a.text ≠ (Number.float t).text := by
  intro h
  rw [h] at ha
  exact absurd (t.fraction.symm.trans ha) (by decide)

theorem Number.text_injective {a b : Number} (h : a.text = b.text) : a = b := by
  cases a with
  | nat m =>
    cases b with
    | nat n => rw [toDigits_injective h]
    | neg n => exact absurd h (nat_text_ne_neg_text m n)
    | float t => exact absurd h (text_ne_float_text (a := .nat m) (toDigits_no_fraction m) t)
  | neg m =>
    cases b with
    | nat n => exact absurd h.symm (nat_text_ne_neg_text n m)
    | neg n =>
      have h' := toDigits_injective (List.cons.inj h).2
      rw [show m = n by omega]
    | float t => exact absurd h (text_ne_float_text (neg_no_fraction m) t)
  | float t =>
    cases b with
    | nat n => exact absurd h.symm (text_ne_float_text (a := .nat n) (toDigits_no_fraction n) t)
    | neg n => exact absurd h.symm (text_ne_float_text (neg_no_fraction n) t)
    | float t' =>
      cases t
      cases t'
      cases h
      rfl

/-! ## Prefix codes -/

/-- What may follow a value's text: nothing a number could go on with. -/
def Delimited (r : List Char) : Prop := ∀ c ∈ r.head?, isNumberChar c = false

theorem delimited_cons {c : Char} {r : List Char} (h : isNumberChar c = false) :
    Delimited (c :: r) := by
  intro d hd
  cases hd
  exact h

theorem takeWhile_number {ds r : List Char} (hd : ∀ c ∈ ds, isNumberChar c = true)
    (hr : Delimited r) : (ds ++ r).takeWhile isNumberChar = ds := by
  rw [List.takeWhile_append_of_pos hd]
  cases r with
  | nil => simp
  | cons c r => simp [hr c rfl]

theorem number_splits {a b : Number} {r r' : List Char} (hr : Delimited r) (hr' : Delimited r')
    (h : a.text ++ r = b.text ++ r') : a = b ∧ r = r' := by
  have ht : a.text = b.text := by
    have := congrArg (List.takeWhile isNumberChar) h
    rwa [takeWhile_number a.text_number hr, takeWhile_number b.text_number hr'] at this
  rw [ht] at h
  exact ⟨Number.text_injective ht, List.append_cancel_left h⟩

def hexValue (c : Char) : ℕ := if c.isDigit then c.toNat - 48 else c.toNat - 87

/-- The character an escaped text starts with, and the text after it. -/
def unescape : List Char → Option (Char × List Char)
  | '\\' :: 'u' :: '0' :: '0' :: a :: b :: r => some (Char.ofNat (16 * hexValue a + hexValue b), r)
  | '\\' :: 'b' :: r => some ('\x08', r)
  | '\\' :: 'f' :: r => some ('\x0c', r)
  | '\\' :: 'n' :: r => some ('\n', r)
  | '\\' :: 'r' :: r => some ('\r', r)
  | '\\' :: 't' :: r => some ('\t', r)
  | '\\' :: c :: r => some (c, r)
  | c :: r => some (c, r)
  | [] => none

theorem hex_control : ∀ n < 32,
    Char.ofNat
    (16 * hexValue (hexDigit (n / 16)) + hexValue (hexDigit (n % 16))) = Char.ofNat n := by
  decide

theorem unescape_plain {c : Char} (h : c ≠ '\\') (r : List Char) :
    unescape (c :: r) = some (c, r) := by
  unfold unescape
  split <;> simp_all

theorem unescape_escape (c : Char) (r : List Char) : unescape (escape c ++ r) = some (c, r) := by
  unfold escape
  split_ifs with h1 h2 h3 h4 h5 h6 h7 h8
  · rw [h1]; rfl
  · rw [h2]; rfl
  · rw [h3]; rfl
  · rw [h4]; rfl
  · rw [h5]; rfl
  · rw [h6]; rfl
  · rw [h7]; rfl
  · have h := hex_control c.toNat h8
    rw [Char.ofNat_toNat] at h
    simp [unescape, h]
  · exact unescape_plain h2 r

theorem escape_head_ne_quote (c : Char) (r : List Char) : (escape c ++ r).head? ≠ some '"' := by
  unfold escape
  split_ifs with h1 <;> simp
  exact h1

theorem escapeAll_splits : ∀ {cs cs' r r' : List Char},
    escapeAll cs ++ r = escapeAll cs' ++ r' → cs = cs' ∧ r = r'
  | [], [], r, r', h => ⟨rfl, (List.cons.inj h).2⟩
  | [], c :: cs, r, r', h => by
    have := congrArg List.head? h
    rw [escapeAll, escapeAll, List.append_assoc] at this
    exact absurd this.symm (escape_head_ne_quote c _)
  | c :: cs, [], r, r', h => by
    have := congrArg List.head? h
    rw [escapeAll, escapeAll, List.append_assoc] at this
    exact absurd this (escape_head_ne_quote c _)
  | c :: cs, c' :: cs', r, r', h => by
    rw [escapeAll, escapeAll, List.append_assoc, List.append_assoc] at h
    have h' := congrArg unescape h
    rw [unescape_escape, unescape_escape] at h'
    obtain ⟨rfl, ht⟩ := Prod.mk.inj (Option.some.inj h')
    obtain ⟨rfl, hr⟩ := escapeAll_splits ht
    exact ⟨rfl, hr⟩

theorem quoted_splits {s s' : String} {r r' : List Char} (h : quoted s ++ r = quoted s' ++ r') :
    s = s' ∧ r = r' := by
  obtain ⟨hs, hr⟩ := escapeAll_splits (List.cons.inj h).2
  exact ⟨String.toList_injective hs, hr⟩

/-- The kind of a value, as its text's first character tells it. -/
inductive Kind where
  | null | true | false | number | str | arr | obj
  deriving DecidableEq

def kind : Json → Kind
  | .null => .null
  | .bool b => if b then .true else .false
  | .number _ => .number
  | .str _ => .str
  | .arr _ => .arr
  | .obj _ => .obj

def kindOfChar (c : Char) : Kind :=
  if c = 'n' then .null
  else if c = 't' then .true
  else if c = 'f' then .false
  else if c = '"' then .str
  else if c = '[' then .arr
  else if c = '{' then .obj
  else .number

theorem kindOfChar_number {c : Char} (h : isNumberChar c = true) : kindOfChar c = .number := by
  unfold kindOfChar
  split_ifs with h1 h2 h3 h4 h5 h6
  all_goals first
    | rfl
    | (subst_vars; exact absurd h (by decide))

theorem kind_head (v : Json) (r : List Char) :
    ((chars v ++ r).head?.map kindOfChar) = some (kind v) := by
  match v with
  | .null => rfl
  | .bool true => rfl
  | .bool false => rfl
  | .number n =>
    have hn := n.text_number
    cases ht : n.text with
    | nil => exact absurd ht n.text_ne_nil
    | cons c cs =>
      rw [ht] at hn
      simp [chars, ht, kind, kindOfChar_number (hn c List.mem_cons_self)]
  | .str s => rfl
  | .arr [] => rfl
  | .arr (v :: vs) => rfl
  | .obj [] => rfl
  | .obj ((k, v) :: ms) => rfl

theorem kind_eq_of_append {v w : Json} {r r' : List Char} (h : chars v ++ r = chars w ++ r') :
    kind v = kind w := by
  have hv := kind_head v r
  rw [h, kind_head w r'] at hv
  exact (Option.some.inj hv).symm

theorem chars_ne_bracket (v : Json) (r r' : List Char) : chars v ++ r ≠ ']' :: r' := by
  intro h
  have hk := kind_head v r
  rw [h] at hk
  match v with
  | .number n =>
    have hn := n.text_number
    cases ht : n.text with
    | nil => exact n.text_ne_nil ht
    | cons c cs =>
      rw [chars, ht] at h
      rw [ht, (List.cons.inj h).1] at hn
      exact absurd (hn _ List.mem_cons_self) (by decide)
  | .null | .bool true | .bool false | .str _ | .arr _ | .obj _ =>
    exact absurd hk (by simp [kind, kindOfChar])

theorem elementChars_delimited (vs : List Json) (r : List Char) :
    Delimited (elementChars vs ++ r) := by
  cases vs with
  | nil => rw [elementChars]; exact delimited_cons (by decide)
  | cons v vs => rw [elementChars]; exact delimited_cons (by decide)

theorem memberChars_delimited (ms : List (String × Json)) (r : List Char) :
    Delimited (memberChars ms ++ r) := by
  cases ms with
  | nil => rw [memberChars]; exact delimited_cons (by decide)
  | cons m ms => cases m; rw [memberChars]; exact delimited_cons (by decide)

mutual

/-- A value's text is a prefix code before a delimiter. -/
theorem text_splits (v w : Json) {r r' : List Char} (hr : Delimited r) (hr' : Delimited r')
    (h : chars v ++ r = chars w ++ r') : v = w ∧ r = r' := by
  have hk := kind_eq_of_append h
  match v, w with
  | .null, .null => exact ⟨rfl, List.append_cancel_left h⟩
  | .bool true, .bool true => exact ⟨rfl, List.append_cancel_left h⟩
  | .bool false, .bool false => exact ⟨rfl, List.append_cancel_left h⟩
  | .number a, .number b =>
    rw [chars, chars] at h
    obtain ⟨rfl, hr⟩ := number_splits hr hr' h
    exact ⟨rfl, hr⟩
  | .str s, .str s' =>
    rw [chars, chars] at h
    obtain ⟨rfl, hr⟩ := quoted_splits h
    exact ⟨rfl, hr⟩
  | .arr [], .arr [] => exact ⟨rfl, List.append_cancel_left h⟩
  | .arr [], .arr (w :: ws) =>
    have h' := h.symm
    rw [chars, chars, List.cons_append, List.append_assoc] at h'
    exact absurd (List.cons.inj h').2 (chars_ne_bracket w _ _)
  | .arr (v :: vs), .arr [] =>
    rw [chars, chars, List.cons_append, List.append_assoc] at h
    exact absurd (List.cons.inj h).2 (chars_ne_bracket v _ _)
  | .arr (v :: vs), .arr (w :: ws) =>
    rw [chars, chars, List.cons_append, List.cons_append, List.append_assoc,
      List.append_assoc] at h
    obtain ⟨rfl, ht⟩ := text_splits v w (elementChars_delimited _ _) (elementChars_delimited _ _)
      (List.cons.inj h).2
    obtain ⟨rfl, hr⟩ := elements_split vs ws ht
    exact ⟨rfl, hr⟩
  | .obj [], .obj [] => exact ⟨rfl, List.append_cancel_left h⟩
  | .obj [], .obj ((k, w) :: ms) => simp [chars, quoted] at h
  | .obj ((k, v) :: ms), .obj [] => simp [chars, quoted] at h
  | .obj ((k, v) :: ms), .obj ((k', w) :: ns) =>
    rw [chars, chars, List.cons_append, List.cons_append, List.append_assoc, List.append_assoc,
      List.cons_append, List.cons_append, List.append_assoc, List.append_assoc] at h
    obtain ⟨rfl, hm⟩ := quoted_splits (List.cons.inj h).2
    obtain ⟨rfl, ht⟩ := text_splits v w (memberChars_delimited _ _) (memberChars_delimited _ _)
      (List.cons.inj hm).2
    obtain ⟨rfl, hr⟩ := members_split ms ns ht
    exact ⟨rfl, hr⟩

theorem elements_split (vs ws : List Json) {r r' : List Char}
    (h : elementChars vs ++ r = elementChars ws ++ r') : vs = ws ∧ r = r' := by
  match vs, ws with
  | [], [] => exact ⟨rfl, List.append_cancel_left h⟩
  | [], w :: ws => simp [elementChars] at h
  | v :: vs, [] => simp [elementChars] at h
  | v :: vs, w :: ws =>
    rw [elementChars, elementChars, List.cons_append, List.cons_append, List.append_assoc,
      List.append_assoc] at h
    obtain ⟨rfl, ht⟩ := text_splits v w (elementChars_delimited _ _) (elementChars_delimited _ _)
      (List.cons.inj h).2
    obtain ⟨rfl, hr⟩ := elements_split vs ws ht
    exact ⟨rfl, hr⟩

theorem members_split (ms ns : List (String × Json)) {r r' : List Char}
    (h : memberChars ms ++ r = memberChars ns ++ r') : ms = ns ∧ r = r' := by
  match ms, ns with
  | [], [] => exact ⟨rfl, List.append_cancel_left h⟩
  | [], (k, w) :: ns => simp [memberChars] at h
  | (k, v) :: ms, [] => simp [memberChars] at h
  | (k, v) :: ms, (k', w) :: ns =>
    rw [memberChars, memberChars, List.cons_append, List.cons_append, List.append_assoc,
      List.append_assoc, List.cons_append, List.cons_append, List.append_assoc,
      List.append_assoc] at h
    obtain ⟨rfl, hm⟩ := quoted_splits (List.cons.inj h).2
    obtain ⟨rfl, ht⟩ := text_splits v w (memberChars_delimited _ _) (memberChars_delimited _ _)
      (List.cons.inj hm).2
    obtain ⟨rfl, hr⟩ := members_split ms ns ht
    exact ⟨rfl, hr⟩

end

/-- **The compact text identifies the value.** -/
theorem text_injective : Function.Injective text := by
  intro v w h
  have h' : chars v ++ [] = chars w ++ [] := by
    rw [List.append_nil, List.append_nil]
    exact String.ofList_injective h
  have hnil : Delimited [] := by simp [Delimited]
  exact (text_splits v w hnil hnil h').1

instance : DecidableEq Json := fun v w => decidable_of_iff (chars v = chars w)
  ⟨fun h => text_injective (congrArg String.ofList h), congrArg chars⟩

/-! ## Reading a value -/

/-- The member `k` of an object. -/
def get (k : String) : Json → Option Json
  | .obj ms => (ms.find? fun m => m.1 = k).map Prod.snd
  | _ => none

def asStr : Json → Option String
  | .str s => some s
  | _ => none

/-- A natural number below `bound`; a double or a negative integer is none. -/
def asNat (bound : ℕ) : Json → Option ℕ
  | .number (.nat n) => if n < bound then some n else none
  | _ => none

/-- A natural number as a value. -/
def ofNat (n : ℕ) : Json := .number (.nat n)

/-- An optional text as a value. -/
def ofOption {α : Type} (f : α → Json) : Option α → Json
  | some a => f a
  | none => .null

/-- One of an enumeration's names: a plain string, or an object of that one name and `null`. -/
def asName {α : Type} (names : List (String × α)) (v : Json) : Option α :=
  match v with
  | .str s => (names.find? fun n => n.1 = s).map Prod.snd
  | .obj [(s, .null)] => (names.find? fun n => n.1 = s).map Prod.snd
  | _ => none

/-- A record's members by name: an object's own (with `strict`, none but the named ones), or an
array's elements in the order of the names, of which the last `defaults` may be absent. -/
def asRecord (strict : Bool) (names : List String) (defaults : ℕ) :
    Json → Option (String → Option Json)
  | .obj ms =>
    if strict && ms.any (fun m => !names.contains m.1) then none
    else some fun k => (Json.obj ms).get k
  | .arr vs =>
    if names.length - defaults ≤ vs.length ∧ vs.length ≤ names.length then
      some fun k => (Json.obj (names.zip vs)).get k
    else none
  | _ => none

/-- A record's optional member: absent and `null` are both none. -/
def optional {α : Type} (read : Json → Option α) (v : Option Json) : Option (Option α) :=
  match v with
  | none => some none
  | some .null => some none
  | some v => (read v).map some

end Json

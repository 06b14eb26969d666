import Markiro.Domain.Labels

/-!
# Line wrapping

The lines of a text within a width (`labels/wrap.ts`). What measures a text is given, in numbers of
any linear order.
-/

namespace Markiro

open Utf16

/-! ## Estimates -/

def ptToMm (pt : ℚ) : ℚ := pt / 72 * (254 / 10)

/-- The width of a text by its number of characters. -/
def estimatedTextWidthMm (text : Units) (fontSizePt : ℚ) : ℚ :=
  (max text.length 1 : ℕ) * ptToMm fontSizePt * (55 / 100)

/-! ## Lines within a width -/

section Wrap

variable {K : Type} [LinearOrder K]

def wrapEllipsis : Units := [0x2026]

def clipBetween (text : Units) (measure : Units → K) (maxWidth : K) (lo hi : ℕ) : Units :=
  if h : lo < hi then
    let mid := (lo + hi + 1) / 2
    if measure (text.take mid ++ wrapEllipsis) ≤ maxWidth then
      clipBetween text measure maxWidth mid hi
    else clipBetween text measure maxWidth lo (mid - 1)
  else text.take lo ++ wrapEllipsis
termination_by hi - lo

def clipWithEllipsis (text : Units) (measure : Units → K) (maxWidth : K) : Units :=
  if maxWidth < measure wrapEllipsis then []
  else clipBetween text measure maxWidth 0 text.length

/-- The characters of a text: surrogates in pairs are one. -/
def charactersOf : Units → List Units
  | u :: v :: rest =>
    if isHighSurrogate u && isLowSurrogate v then [u, v] :: charactersOf rest
    else [u] :: charactersOf (v :: rest)
  | [u] => [[u]]
  | [] => []

/-- The characters go on the chunk begun, or begin the next. -/
def breakCharacters (measure : Units → K) (maxWidth : K) : Units → List Units → List Units
  | current, [] => if current = [] then [] else [current]
  | current, ch :: rest =>
    if current ≠ [] ∧ maxWidth < measure (current ++ ch) then
      current :: breakCharacters measure maxWidth ch rest
    else breakCharacters measure maxWidth (current ++ ch) rest

/-- The chunks of a word that is too wide. -/
def breakLongWord (word : Units) (measure : Units → K) (maxWidth : K) : List Units :=
  let chunks := breakCharacters measure maxWidth [] (charactersOf word)
  if chunks = [] then [word] else chunks

/-- `split(/\s+/)` without the empty parts. -/
def wordsOf (text : Units) : List Units :=
  (text.splitOnP isEcmaWhitespace).filter fun w => decide (w ≠ [])

/-- The loop over the words; `current` is the line begun. -/
def wrapWords (measure : Units → K) (maxWidth : K) : Units → List Units → List Units
  | current, [] => if current = [] then [] else [current]
  | current, word :: rest =>
    let candidate := if current = [] then word else current ++ encode " " ++ word
    if measure candidate ≤ maxWidth then wrapWords measure maxWidth candidate rest
    else
      let flushed := if current = [] then [] else [current]
      if measure word ≤ maxWidth then flushed ++ wrapWords measure maxWidth word rest
      else
        let chunks := breakLongWord word measure maxWidth
        flushed ++ chunks.dropLast ++ wrapWords measure maxWidth (chunks.getLastD []) rest

def wrapTextToWidth [Zero K] (text : Units) (measure : Units → K) (maxWidth : K) (maxLines : ℚ) :
    List Units :=
  if maxWidth ≤ 0 then [text]
  else
    let limit := max 1 ⌊maxLines⌋.toNat
    let words := wordsOf text
    if words = [] then [text]
    else
      let lines := wrapWords measure maxWidth [] words
      if lines = [] then [[]]
      else if lines.length ≤ limit then lines
      else lines.take (limit - 1) ++
        [clipWithEllipsis ((lines.take limit).getLastD []) measure maxWidth]

/-- Sheet printing never turns missing text into a plausible truncated value. -/
def wrapTextToWidthStrict [Zero K] (text : Units) (measure : Units → K) (maxWidth : K)
    (maxLines : ℚ) : Except Units (List Units) :=
  if maxWidth ≤ 0 ∨ isSafeInteger maxLines = false ∨ maxLines < 1 then
    .error (encode "Invalid text layout bounds")
  else
    let lines := (splitLines text).flatMap fun line =>
      wrapTextToWidth line measure maxWidth maxSafeInteger
    if maxLines < lines.length ∨ (lines.any fun line => maxWidth < measure line) = true then
      .error (encode "Complete text does not fit its declared lines and width")
    else .ok lines

end Wrap

end Markiro

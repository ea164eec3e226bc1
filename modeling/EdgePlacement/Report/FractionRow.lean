import EdgePlacement.Decimal.Fixed

/-!
# Rows of fractions as text

A row stands between brackets, its numbers with at most three decimals and the zeros at their ends
dropped, but all of one width. A row that is too long goes on in the next line, one blank in.
-/

namespace EdgePlacement

open EdgePlacement.Decimal

def fractionText (value : Float) : List Char :=
  trimFraction (fixedText 3 value).toList

def padTo (width : Nat) (text : List Char) : List Char :=
  text ++ List.replicate (width - text.length) ' '

def dropEndBlanks (text : List Char) : List Char :=
  (text.reverse.dropWhile (· = ' ')).reverse

/-- Lines while words are put into them, the finished ones with the latest in front. A line starts
with one blank, and a blank follows every word. -/
structure WordWrap where
  finished : List (List Char)
  line : List Char

namespace WordWrap

def lineWidth : Nat := 74

def start : WordWrap := ⟨[], [' ']⟩

/-- A word that is alone in its line stays there, however long it is. -/
def add (w : WordWrap) (word : List Char) : WordWrap :=
  if lineWidth < w.line.length + word.length && 1 < w.line.length then
    ⟨dropEndBlanks w.line :: w.finished, [' '] ++ word ++ [' ']⟩
  else { w with line := w.line ++ word ++ [' '] }

def lines (w : WordWrap) : List (List Char) :=
  (w.line.dropLast :: w.finished).reverse

end WordWrap

def fractionRowText (row : List Float) : String :=
  let words := row.map fractionText
  let width := words.foldl (fun width word => max width word.length) 0
  let lines := ((words.map (padTo width)).foldl WordWrap.add WordWrap.start).lines
  let text := (lines.intersperse ['\n']).flatten
  String.ofList (['['] ++ text.drop 1 ++ [']'])

end EdgePlacement

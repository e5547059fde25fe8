namespace ScoreOverlay.Text

/-- The lines of a text. A line ends before a line feed, or before a carriage return directly in
    front of it; a carriage return elsewhere is part of the line. What follows the last line feed is
    a line unless it is empty. -/
def lines : List Char → List (List Char)
  | [] => []
  | '\n' :: rest => [] :: lines rest
  | '\r' :: '\n' :: rest => [] :: lines rest
  | c :: rest =>
    match lines rest with
    | [] => [[c]]
    | line :: others => (c :: line) :: others

/-- The first line of a text. The empty text has none. -/
def firstLine? (text : List Char) : Option (List Char) := (lines text).head?

end ScoreOverlay.Text

/-! Line endings of files: a carriage return, alone or before a newline, is a newline. -/
namespace Munch.Text

/-- The text with every line ending written as one newline. -/
def normalizeNewlines : List Char → List Char
  | [] => []
  | '\r' :: '\n' :: rest => '\n' :: normalizeNewlines rest
  | '\r' :: rest => '\n' :: normalizeNewlines rest
  | c :: rest => c :: normalizeNewlines rest

end Munch.Text

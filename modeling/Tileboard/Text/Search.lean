namespace Tileboard.Text

def occursIn (needle : List Char) : List Char → Bool
  | [] => needle.isEmpty
  | c :: rest => needle.isPrefixOf (c :: rest) || occursIn needle rest

def contains (hay needle : String) : Bool := occursIn needle.toList hay.toList

end Tileboard.Text

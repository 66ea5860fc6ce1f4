import HeaderKeys.KeyName

/-! Key arrays in the two languages: the line that opens one in a header, the mark that
closes it there, and the constant that it becomes. -/

namespace HeaderKeys

/-- What stands before the name where a header declares a key array. -/
def elementType : Text := "uint32_t ".toList

def closingMark : Text := "\x7d;".toList

/-- The declaration of `key` as a header spells it. -/
def KeyName.opening (key : KeyName) : Text := elementType ++ key.identifier

def openingKey? (text : Text) : Option KeyName := KeyName.all.find? fun key => key.opening.isPrefixOf text

/-- The key declared first on a line, reading from the left. -/
def declaredKey? : Text → Option KeyName
  | [] => none
  | c :: rest => (openingKey? (c :: rest)).or (declaredKey? rest)

def closes (line : Text) : Bool := occurs closingMark line

/-- The constant for `key` around `block`, which should end with a line break. S-boxes
have one pair of braces more, since their rows are separated inside the block. -/
def declaration (key : KeyName) (block : Text) : Text :=
  if key.isPlural then
    "public static final long[][] ".toList ++ key.identifier ++ " = \x7b\x7b\n".toList
      ++ block ++ "\t\x7d\x7d;".toList
  else
    "public static final long[] ".toList ++ key.identifier ++ " = \x7b\n".toList
      ++ block ++ "\t\x7d;".toList

end HeaderKeys

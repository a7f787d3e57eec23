namespace EntitySql.Keyword

def reserved : List String :=
  ["_", "abstract", "as", "async", "await", "become", "box", "break", "const", "continue", "crate",
    "do", "dyn", "else", "enum", "extern", "false", "final", "fn", "for", "if", "impl", "in", "let",
    "loop", "macro", "match", "mod", "move", "mut", "override", "priv", "pub", "ref", "return",
    "Self", "self", "static", "struct", "super", "trait", "true", "try", "type", "typeof", "unsafe",
    "unsized", "use", "virtual", "where", "while", "yield"]

def pathWords : List String := ["super", "self", "Self", "crate"]

/-- Words that cannot be names even with the mark. -/
def neverNames : List String := "_" :: pathWords

def isFree (word : String) : Bool := !reserved.contains word

/-- Whether a word may be a part of a path. -/
def isSegment (word : String) : Bool := isFree word || pathWords.contains word

end EntitySql.Keyword

import EcmaStack.Grammar.RegExp.Scan

/-!
# Escapes in regular expressions

What may follow a backslash: the code of a character, the name of a set of characters, a
reference to a group, or a character that stands for itself. The same escapes are read twice:
while groups are still looked for (a **dry** scan), when a name is not checked, and once they
are known.
-/

/-!
## Groups of a regular expression

The groups that a body declares. Zero is the whole match. Groups without a name or a number are
numbered in order; names get the numbers that are left.
-/

namespace EcmaStack

namespace RegExp

/-- Declared groups: the numbers in use, and the names. -/
structure Groups where
  numbers : List Nat := [0]
  names : List String := []

namespace Groups

/-- Whether a group has a number. -/
def hasNumber (g : Groups) (n : Nat) : Bool :=
  g.numbers.contains n

/-- Whether a group has a name. -/
def hasName (g : Groups) (name : String) : Bool :=
  g.names.contains name

/-- Add a number, if it is new. -/
def addNumber (g : Groups) (n : Nat) : Groups :=
  if g.hasNumber n then g else { g with numbers := n :: g.numbers }

/-- Add a name, if it is new. -/
def addName (g : Groups) (name : String) : Groups :=
  if g.hasName name then g else { g with names := g.names ++ [name] }

/-- The least number from a start on that no group has, looked for so many times. -/
def freeFrom (g : Groups) : Nat → Nat → Nat
  | 0, n => n
  | fuel + 1, n => if g.hasNumber n then g.freeFrom fuel (n + 1) else n

/-- Give every name a number, from a start on. -/
def number (g : Groups) (start : Nat) : Groups :=
  (g.names.foldl (fun (g, next) _ =>
    let n := g.freeFrom (g.numbers.length + 1) next
    (g.addNumber n, n + 1)) (g, start)).1

/-- Whether a group can be referred to by name: some group has one, or a number is left out, so
that numbers count as names. -/
def areNamed (g : Groups) : Bool :=
  !g.names.isEmpty || g.numbers.any (g.numbers.length ≤ ·)

end Groups

end RegExp

end EcmaStack

/-!
## Names of character properties

The names by which a regular expression may ask for a set of characters: general categories,
scripts, and the binary properties of the standard.
-/

namespace EcmaStack

namespace RegExp

/-- The general categories, by their short names. -/
def categoryNames : List String :=
  ["C", "Cc", "Cf", "Cn", "Co", "Cs", "L", "LC", "Ll", "Lm", "Lo", "Lt", "Lu", "M", "Mc", "Me",
   "Mn", "N", "Nd", "Nl", "No", "P", "Pc", "Pd", "Pe", "Pf", "Pi", "Po", "Ps", "S", "Sc", "Sk",
   "Sm", "So", "Z", "Zl", "Zp", "Zs"]

/-- The scripts. -/
def scriptNames : List String :=
  ["Adlam", "Ahom", "Anatolian_Hieroglyphs", "Arabic", "Armenian", "Avestan", "Balinese", "Bamum",
   "Bassa_Vah", "Batak", "Bengali", "Beria_Erfe", "Bhaiksuki", "Bopomofo", "Brahmi", "Braille",
   "Buginese", "Buhid", "Canadian_Aboriginal", "Carian", "Caucasian_Albanian", "Chakma", "Cham",
   "Cherokee", "Chorasmian", "Common", "Coptic", "Cuneiform", "Cypriot", "Cypro_Minoan",
   "Cyrillic", "Deseret", "Devanagari", "Dives_Akuru", "Dogra", "Duployan",
   "Egyptian_Hieroglyphs", "Elbasan", "Elymaic", "Ethiopic", "Garay", "Georgian", "Glagolitic",
   "Gothic", "Grantha", "Greek", "Gujarati", "Gunjala_Gondi", "Gurmukhi", "Gurung_Khema", "Han",
   "Hangul", "Hanifi_Rohingya", "Hanunoo", "Hatran", "Hebrew", "Hiragana", "Imperial_Aramaic",
   "Inherited", "Inscriptional_Pahlavi", "Inscriptional_Parthian", "Javanese", "Kaithi",
   "Kannada", "Katakana", "Kawi", "Kayah_Li", "Kharoshthi", "Khitan_Small_Script", "Khmer",
   "Khojki", "Khudawadi", "Kirat_Rai", "Lao", "Latin", "Lepcha", "Limbu", "Linear_A", "Linear_B",
   "Lisu", "Lycian", "Lydian", "Mahajani", "Makasar", "Malayalam", "Mandaic", "Manichaean",
   "Marchen", "Masaram_Gondi", "Medefaidrin", "Meetei_Mayek", "Mende_Kikakui", "Meroitic_Cursive",
   "Meroitic_Hieroglyphs", "Miao", "Modi", "Mongolian", "Mro", "Multani", "Myanmar", "Nabataean",
   "Nag_Mundari", "Nandinagari", "New_Tai_Lue", "Newa", "Nko", "Nushu", "Nyiakeng_Puachue_Hmong",
   "Ogham", "Ol_Chiki", "Ol_Onal", "Old_Hungarian", "Old_Italic", "Old_North_Arabian",
   "Old_Permic", "Old_Persian", "Old_Sogdian", "Old_South_Arabian", "Old_Turkic", "Old_Uyghur",
   "Oriya", "Osage", "Osmanya", "Pahawh_Hmong", "Palmyrene", "Pau_Cin_Hau", "Phags_Pa",
   "Phoenician", "Psalter_Pahlavi", "Rejang", "Runic", "Samaritan", "Saurashtra", "Sharada",
   "Shavian", "Siddham", "Sidetic", "SignWriting", "Sinhala", "Sogdian", "Sora_Sompeng",
   "Soyombo", "Sundanese", "Sunuwar", "Syloti_Nagri", "Syriac", "Tagalog", "Tagbanwa", "Tai_Le",
   "Tai_Tham", "Tai_Viet", "Tai_Yo", "Takri", "Tamil", "Tangsa", "Tangut", "Telugu", "Thaana",
   "Thai", "Tibetan", "Tifinagh", "Tirhuta", "Todhri", "Tolong_Siki", "Toto", "Tulu_Tigalari",
   "Ugaritic", "Vai", "Vithkuqi", "Wancho", "Warang_Citi", "Yezidi", "Yi", "Zanabazar_Square"]

/-- The binary properties. -/
def binaryPropertyNames : List String :=
  ["ASCII_Hex_Digit", "Bidi_Control", "Dash", "Deprecated", "Diacritic", "Extender", "Hex_Digit",
   "Hyphen", "IDS_Binary_Operator", "IDS_Trinary_Operator", "IDS_Unary_Operator",
   "ID_Compat_Math_Continue", "ID_Compat_Math_Start", "Ideographic", "Join_Control",
   "Logical_Order_Exception", "Modifier_Combining_Mark", "Noncharacter_Code_Point",
   "Other_Alphabetic", "Other_Default_Ignorable_Code_Point", "Other_Grapheme_Extend",
   "Other_ID_Continue", "Other_ID_Start", "Other_Lowercase", "Other_Math", "Other_Uppercase",
   "Pattern_Syntax", "Pattern_White_Space", "Prepended_Concatenation_Mark", "Quotation_Mark",
   "Radical", "Regional_Indicator", "STerm", "Sentence_Terminal", "Soft_Dotted",
   "Terminal_Punctuation", "Unified_Ideograph", "Variation_Selector", "White_Space"]

/-- Whether a name stands for a set of characters. -/
def isPropertyName (name : String) : Bool :=
  categoryNames.contains name || scriptNames.contains name || binaryPropertyNames.contains name

end RegExp

end EcmaStack

/-! ## What may follow a backslash -/

namespace EcmaStack

open Text

namespace RegExp

/-! ### Codes of characters -/

/-- The value of hexadecimal digits. -/
def hexValue (digits : List Char) : Nat :=
  positional 0 digits
where
  /-- The value of digits after those with a value. -/
  positional (value : Nat) : List Char → Nat
    | [] => value
    | d :: rest => positional (16 * value + (digitValue? d).getD 0) rest

/-- The code with so many hexadecimal digits; without them the letter stands for itself. -/
def hexCode (letter : Char) (width : Nat) (rest : List Char) : Nat × List Char :=
  let digits := rest.take width
  if digits.length == width && digits.all fun d => (digitValue? d).isSome then (hexValue digits,
    rest.drop width)
  else (letter.toNat, rest)

/-- The rest of a code point in braces, after digits with a value, of which there may have been
none. -/
def bracedFrom (hasDigit : Bool) (value : Nat) : List Char → Scan (Nat × List Char)
  | [] => .error (.missingBrace, [])
  | c :: rest =>
    if c == '\x7d' then if hasDigit then .ok (value, rest) else .error (.fewHexDigits, rest)
    else
      match digitValue? c with
      | none => .error (.missingBrace, rest)
      | some d =>
        let more := 16 * value + d
        if 0x10FFFF < more then .error (.largeCodePoint, rest) else bracedFrom true more rest

/-- Up to so many octal digits, no more of them once the value has reached 32; the low eight
bits count. -/
def octalCode : Nat → Nat → List Char → Nat × List Char
  | 0, value, cs => (value % 256, cs)
  | more + 1, value, cs =>
    match cs with
    | d :: rest =>
      if '0' ≤ d && d ≤ '7' && value < 32 then
        octalCode more (8 * value + (d.toNat - '0'.toNat)) rest
      else (value % 256, cs)
    | [] => (value % 256, cs)

/-- The code of a control character written with its letter. -/
def controlCode? (c : Char) : Option Nat :=
  let upper := c.toUpper.toNat
  if 0x40 ≤ upper && upper < 0x60 then some (upper - 0x40) else none

/-- The code of the character that an escape stands for, the backslash being read. -/
def charCode (o : Options) (c : Char) (rest : List Char) : Scan (Nat × List Char) :=
  match c with
  | 'x' => .ok (hexCode c 2 rest)
  | 'u' =>
    if o.codePoints && rest.head? == some '\x7b' then bracedFrom false 0 (rest.drop 1)
    else .ok (hexCode c 4 rest)
  | 'c' =>
    match rest with
    | letter :: tail =>
      match controlCode? letter with
      | some code => .ok (code, tail)
      | none => .ok (c.toNat, rest)
    | [] => .ok (c.toNat, rest)
  | 'a' => .ok (0x07, rest)
  | 'b' => .ok (0x08, rest)
  | 'e' => .ok (0x1b, rest)
  | 'f' => .ok (0x0c, rest)
  | 'n' => .ok (0x0a, rest)
  | 'r' => .ok (0x0d, rest)
  | 't' => .ok (0x09, rest)
  | 'v' => .ok (0x0b, rest)
  | c => .ok (if '0' ≤ c && c ≤ '7' then octalCode 3 0 (c :: rest) else (c.toNat, rest))

/-! ### Sets of characters -/

/-- Read the name of a set of characters, the letter `p` being read: one letter, or a name in
braces. -/
def property (cs : List Char) : Scan (Unit × List Char) :=
  match cs with
  | '\x7b' :: rest =>
    if rest.length < 2 then .error (.incompleteProperty, cs)
    else
      let isPart (c : Char) : Bool := isWordCharacter c || c == '-'
      let name := String.ofList (rest.takeWhile isPart)
      match rest.dropWhile isPart with
      | [] => .error (.incompleteProperty, [])
      | c :: after =>
        if c != '\x7d' then .error (.incompleteProperty, after)
        else if isPropertyName name then .ok ((), after)
        else .error (.unknownProperty name, after)
  | c :: rest =>
    if isPropertyName c.toString then .ok ((), rest) else .error (.unknownProperty c.toString, rest)
  | [] => .error (.incompleteProperty, [])

/-! ### References -/

/-- Read a reference by name, the letter `k` being read. A number that is not closed leaves the
letter alone. In a dry scan a name need not be declared. -/
def nameReference (g : Groups) (dry : Bool) (cs : List Char) : Scan (Unit × List Char) := do
  match cs with
  | '<' :: c :: tail =>
    let rest := c :: tail
    if isDecimalDigit c then
      let (n, after) ← decimal rest
      match after with
      | '>' :: past => if g.hasNumber n then .ok ((), past) else .error (.undefinedNumber n, past)
      | _ => .ok ((), cs)
    else
      let name := String.ofList (rest.takeWhile isWordCharacter)
      let after := rest.dropWhile isWordCharacter
      match after with
      | '>' :: past =>
        if name.isEmpty then .error (.nameReference, after)
        else if dry || g.hasName name then .ok ((), past)
        else .error (.undefinedName name, past)
      | _ => .error (.nameReference, if name.isEmpty then after else after.drop 1)
  | [] => .error (.nameReference, 'k' :: cs)
  | _ :: rest => .error (.nameReference, rest)

/-- Read what follows a backslash outside a class. References by name are read only where groups
have names. -/
def escape (g : Groups) (o : Options) (dry : Bool) (cs : List Char) : Scan (Unit × List Char) := do
  match cs with
  | [] => .error (.endEscape, [])
  | c :: rest =>
    if "bBAGZzwWsSdD".toList.contains c then .ok ((), rest)
    else if c == 'p' || c == 'P' then property rest
    else if c == 'k' && g.areNamed then nameReference g dry rest
    else if isDecimalDigit c && c != '0' then
      let (_, after) ← decimal cs
      .ok ((), after)
    else
      let (_, after) ← charCode o c rest
      .ok ((), after)

end RegExp

end EcmaStack

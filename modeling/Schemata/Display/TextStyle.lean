import Schemata.Number.Numeral
import Schemata.Text.Case
import Schemata.Text.Split

/-!
# Display — text styles

Styles in words, such as `bold red on white`.  The words set attributes (`not` takes one back), a
colour, a colour behind the text, and a link; of two that set the same the last one holds.  Two
texts name the same style when they set the same (`TextStyle.nameOf`), whatever the order of their
words and whether an attribute is called by its name or by its letter.  A text that is no style
names only itself, in small letters.
-/

namespace Schemata

/-- A style of text. -/
structure TextStyle where
  attributes : List (String × Bool) := []
  color : Option String := none
  background : Option String := none
  link : Option String := none
  deriving DecidableEq, Repr

namespace TextStyle

/-- The attributes, in the order in which they are named. -/
def attributeNames : List String :=
  ["bold", "dim", "italic", "underline", "blink", "blink2", "reverse", "conceal", "strike",
   "underline2", "frame", "encircle", "overline"]

/-- The letters of attributes. -/
def attributeLetters : List (String × String) :=
  [("b", "bold"), ("d", "dim"), ("i", "italic"), ("u", "underline"), ("r", "reverse"),
   ("c", "conceal"), ("s", "strike"), ("uu", "underline2"), ("o", "overline")]

/-- The attribute that a word calls. -/
def attribute? (word : String) : Option String :=
  if attributeNames.contains word then some word else attributeLetters.lookup word

/-- The colours that have a name. -/
def colorNames : List String := Text.words "
   black red green yellow blue magenta cyan white bright_black bright_red bright_green
   bright_yellow bright_blue bright_magenta bright_cyan bright_white grey0 gray0 navy_blue
   dark_blue blue3 blue1 dark_green deep_sky_blue4 dodger_blue3 dodger_blue2 green4
   spring_green4 turquoise4 deep_sky_blue3 dodger_blue1 green3 spring_green3 dark_cyan
   light_sea_green deep_sky_blue2 deep_sky_blue1 spring_green2 cyan3 dark_turquoise turquoise2
   green1 spring_green1 medium_spring_green cyan2 cyan1 dark_red deep_pink4 purple4 purple3
   blue_violet orange4 grey37 gray37 medium_purple4 slate_blue3 royal_blue1 chartreuse4
   dark_sea_green4 pale_turquoise4 steel_blue steel_blue3 cornflower_blue chartreuse3
   cadet_blue sky_blue3 steel_blue1 pale_green3 sea_green3 aquamarine3 medium_turquoise
   chartreuse2 sea_green2 sea_green1 aquamarine1 dark_slate_gray2 dark_magenta dark_violet
   purple light_pink4 plum4 medium_purple3 slate_blue1 yellow4 wheat4 grey53 gray53
   light_slate_grey light_slate_gray medium_purple light_slate_blue dark_olive_green3
   dark_sea_green light_sky_blue3 sky_blue2 dark_sea_green3 dark_slate_gray3 sky_blue1
   chartreuse1 light_green pale_green1 dark_slate_gray1 red3 medium_violet_red magenta3
   dark_orange3 indian_red hot_pink3 medium_orchid3 medium_orchid medium_purple2
   dark_goldenrod light_salmon3 rosy_brown grey63 gray63 medium_purple1 gold3 dark_khaki
   navajo_white3 grey69 gray69 light_steel_blue3 light_steel_blue yellow3 dark_sea_green2
   light_cyan3 light_sky_blue1 green_yellow dark_olive_green2 dark_sea_green1 pale_turquoise1
   deep_pink3 magenta2 hot_pink2 orchid medium_orchid1 orange3 light_pink3 pink3 plum3 violet
   light_goldenrod3 tan misty_rose3 thistle3 plum2 khaki3 light_goldenrod2 light_yellow3
   grey84 gray84 light_steel_blue1 yellow2 dark_olive_green1 honeydew2 light_cyan1 red1
   deep_pink2 deep_pink1 magenta1 orange_red1 indian_red1 hot_pink dark_orange salmon1
   light_coral pale_violet_red1 orchid2 orchid1 orange1 sandy_brown light_salmon1 light_pink1
   pink1 plum1 gold1 navajo_white1 misty_rose1 thistle1 yellow1 light_goldenrod1 khaki1 wheat1
   cornsilk1 grey100 gray100 grey3 gray3 grey7 gray7 grey11 gray11 grey15 gray15 grey19 gray19
   grey23 gray23 grey27 gray27 grey30 gray30 grey35 gray35 grey39 gray39 grey42 gray42 grey46
   gray46 grey50 gray50 grey54 gray54 grey58 gray58 grey62 gray62 grey66 gray66 grey70 gray70
   grey74 gray74 grey78 gray78 grey82 gray82 grey85 gray85 grey89 gray89 grey93 gray93"

/-- What stands in round brackets after a name. -/
def inBrackets? (name word : String) : Option (List Char) :=
  let cs := word.toList
  let inside := (cs.drop (name.length + 1)).dropLast
  if cs = name.toList ++ '(' :: inside ++ [')'] then some inside else none

/-- An intensity of a colour, up to 255. -/
def isIntensity (cs : List Char) : Bool :=
  !cs.isEmpty && cs.all Text.isDecimal && Numeral.ofDigits (Numeral.digitValues cs) ≤ 255

/-- Whether a word in small letters is a colour: by its name, by six hexadecimal digits after a
number sign, by its number, or by the intensities of red, green and blue. -/
def isColor (word : String) : Bool :=
  word == "default" || colorNames.contains word ||
    (match word.toList with
    | '#' :: ds =>
      ds.length == 6 && ds.all fun c => c.isDigit || ('a' ≤ c && c ≤ 'f')
    | _ => false) ||
    (match inBrackets? "color" word with
    | some ds => ds.length ≤ 3 && ds.all Char.isDigit && isIntensity ds
    | none => false) ||
    (match inBrackets? "rgb" word with
    | some cs =>
      let parts := Text.splitOn ',' cs
      parts.length == 3 && parts.all isIntensity
    | none => false)

/-- The style with an attribute set or taken back. -/
def withAttribute (s : TextStyle) (name : String) (isSet : Bool) : TextStyle :=
  { s with attributes := s.attributes.filter (fun a => a.1 != name) ++ [(name, isSet)] }

/-- The style with what words set, if all of them are known.  The word after `not` is to be
written in small letters, and that after `link` is kept as it is. -/
def withWords (s : TextStyle) : List String → Option TextStyle
  | [] => some s
  | word :: words =>
    match Text.lower word, words with
    | "on", color :: words =>
      if isColor (Text.lower color) then
        withWords { s with background := some (Text.lower color) } words
      else none
    | "not", name :: words => do withWords (s.withAttribute (← attribute? name) false) words
    | "link", target :: words => withWords { s with link := some target } words
    | word, words =>
      match attribute? word with
      | some name => withWords (s.withAttribute name true) words
      | none =>
        if isColor word then withWords { s with color := some word } words else none

/-- A style in words, in one fixed order. -/
def text (s : TextStyle) : String :=
  let attributes := attributeNames.filterMap fun name =>
    (s.attributes.lookup name).map fun isSet => if isSet then name else "not " ++ name
  let words := attributes ++ s.color.toList ++ (s.background.map ("on " ++ ·)).toList ++
    (s.link.map ("link " ++ ·)).toList
  if words.isEmpty then "none" else " ".intercalate words

/-- The name of the style that a text names, the same for all texts that do. -/
def nameOf (name : String) : String :=
  match ({} : TextStyle).withWords (Text.words name) with
  | some s => s.text
  | none => Text.lower (Text.strip name)

end TextStyle

end Schemata

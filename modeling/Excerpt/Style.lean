/-! Styles of text. What a style sets is its list of attributes; styles that set
the same attributes are alike, however they are written. -/
namespace Excerpt

/-- The eight portable terminal colors. -/
inductive Color where
  | black | red | green | yellow | blue | magenta | cyan | white
  deriving DecidableEq, Repr

namespace Color

def all : List Color := [black, red, green, yellow, blue, magenta, cyan, white]

def name : Color → String
  | black => "black"
  | red => "red"
  | green => "green"
  | yellow => "yellow"
  | blue => "blue"
  | magenta => "magenta"
  | cyan => "cyan"
  | white => "white"

def ofName? (name : String) : Option Color := all.find? (·.name == name)

theorem ofName?_name (c : Color) : ofName? c.name = some c := by
  cases c <;> decide +kernel

end Color

/-- One thing a style sets. -/
inductive Attribute where
  | foreground (color : Color)
  | bold
  | dim
  | italic
  | underline
  deriving DecidableEq, Repr

def Attribute.name : Attribute → String
  | foreground color => "fg:" ++ color.name
  | bold => "bold"
  | dim => "dim"
  | italic => "italic"
  | underline => "underline"

/-- A complete style. A flag may be left out or switched off, which sets nothing
either way. -/
structure Style where
  foreground : Option Color
  bold : Option Bool
  dim : Option Bool
  italic : Option Bool
  underline : Option Bool
  deriving DecidableEq, Repr

namespace Style

/-- The style with every entry left out. -/
def empty : Style := ⟨none, none, none, none, none⟩

instance : Inhabited Style := ⟨empty⟩

def ofForeground (color : Color) : Style := { empty with foreground := some color }

/-- What a style sets, in a fixed order. -/
def attributes (s : Style) : List Attribute :=
  (s.foreground.map Attribute.foreground).toList ++
    (if s.bold = some true then [.bold] else []) ++
    (if s.dim = some true then [.dim] else []) ++
    (if s.italic = some true then [.italic] else []) ++
    (if s.underline = some true then [.underline] else [])

/-- Styles are alike when they set the same attributes. -/
def Alike (a b : Style) : Prop := a.attributes = b.attributes

instance (a b : Style) : Decidable (Alike a b) := inferInstanceAs (Decidable (_ = _))

/-- The names of the attributes, such as `fg:red bold`. -/
def toText (s : Style) : String := " ".intercalate (s.attributes.map Attribute.name)

/-- A style that sets nothing counts as no style. -/
def effective? (s : Style) : Option Style := if s.attributes = [] then none else some s

end Style

/-- The style text has, if any. No style is alike to itself only, and differs
from a style that sets nothing. -/
def SameStyle (a b : Option Style) : Prop :=
  a.map Style.attributes = b.map Style.attributes

instance (a b : Option Style) : Decidable (SameStyle a b) := inferInstanceAs (Decidable (_ = _))

namespace SameStyle

@[refl] theorem refl (a : Option Style) : SameStyle a a := rfl

@[symm] theorem symm {a b : Option Style} (h : SameStyle a b) : SameStyle b a := Eq.symm h

theorem trans {a b c : Option Style} (h : SameStyle a b) (h' : SameStyle b c) : SameStyle a c :=
  Eq.trans h h'

end SameStyle
end Excerpt

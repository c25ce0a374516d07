import Excerpt.Diagnostic
import Excerpt.Style

/-! Themes: the styles of the parts of the output. Labels take their color from
the theme's severity or secondary color; the marker and message styles add the
rest. A style that sets nothing leaves its part unstyled. -/
namespace Excerpt

structure Theme where
  /-- Header words, and primary labels. -/
  severity : Severity → Color
  /-- Secondary labels. -/
  secondary : Color
  /-- The message in the header. -/
  header : Style
  /-- Line numbers and separators. -/
  gutter : Style
  /-- The place behind the arrow. -/
  location : Option Style
  /-- Underlines, pointers and connectors. -/
  marker : Style
  /-- Label messages. -/
  message : Style
  note : Option Style

/-- What a caller may change in the standard theme. -/
structure ThemeOverrides where
  severity : Severity → Option Color
  secondary : Option Color
  header : Option Style
  gutter : Option Style
  location : Option Style
  marker : Option Style
  message : Option Style
  note : Option Style

namespace Theme

def standard : Theme where
  severity
    | .bug => .red
    | .error => .red
    | .warning => .yellow
    | .note => .green
    | .help => .cyan
  secondary := .blue
  header := { Style.empty with bold := some true }
  gutter := .ofForeground .blue
  location := none
  marker := .empty
  message := .empty
  note := none

/-- The color of a label in a diagnostic. -/
def labelColor (theme : Theme) (severity : Severity) : LabelStyle → Color
  | .primary => theme.severity severity
  | .secondary => theme.secondary

end Theme

namespace ThemeOverrides

def empty : ThemeOverrides := ⟨fun _ => none, none, none, none, none, none, none, none⟩

def resolve (o : ThemeOverrides) : Theme where
  severity s := (o.severity s).getD (Theme.standard.severity s)
  secondary := o.secondary.getD Theme.standard.secondary
  header := o.header.getD Theme.standard.header
  gutter := o.gutter.getD Theme.standard.gutter
  location := o.location.or Theme.standard.location
  marker := o.marker.getD Theme.standard.marker
  message := o.message.getD Theme.standard.message
  note := o.note.or Theme.standard.note

end ThemeOverrides
end Excerpt

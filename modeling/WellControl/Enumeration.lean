/-!
# Named alternatives

A finite kind of thing whose members are written by name.  `Enumeration.find?` reads a name
exactly as `name` writes it, case included.
-/

set_option autoImplicit false

namespace WellControl

/-- All members of a type, a written name for each, and a title for the whole. -/
class Enumeration (τ : Type) where
  title : String
  members : List τ
  name : τ → String

namespace Enumeration
variable {τ : Type} [Enumeration τ]

/-- The first member written as `text`. -/
def find? (text : String) : Option τ := (members : List τ).find? fun x => name x = text

end Enumeration
end WellControl

/-!
# Values of a settings file

What a settings file holds: texts, numbers, truth values, moments, lists and tables. A moment keeps
its written form.
-/

namespace StagePlay.Toml

/-- **A value.** -/
inductive Value where
  | text (s : String)
  | int (i : Int)
  | real (x : Float)
  | bool (b : Bool)
  | moment (s : String)
  | array (items : List Value)
  | table (members : List (String × Value))
  deriving Repr

end StagePlay.Toml

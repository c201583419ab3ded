import ToxEvents.Text.Scanner
set_option autoImplicit false

namespace ToxEvents.Scanner

variable {α β : Type} {p q : Scanner α} {f : α → Scanner β} {text rest last : List Char} {a : α}
  {as : List α}

theorem bind_of_some (read : p text = some (a, rest)) : (p >>= f) text = f a rest := by
  change (p text >>= fun result => f result.1 result.2) = _
  rw [read]
  rfl

theorem bind_of_none (refused : p text = none) : (p >>= f) text = none := by
  change (p text >>= fun result => f result.1 result.2) = _
  rw [refused]
  rfl

theorem orElse_of_some (read : p text = some (a, rest)) : (p <|> q) text = some (a, rest) := by
  change (p text <|> q text) = _
  rw [read]
  rfl

theorem orElse_of_none (refused : p text = none) : (p <|> q) text = q text := by
  change (p text <|> q text) = _
  rw [refused]
  rfl

theorem optional_of_some (read : p text = some (a, rest)) :
    (optional p : Scanner (Option α)) text = some (some a, rest) := by
  change ((p text >>= fun result => some (some result.1, result.2)) <|> some (none, text)) = _
  rw [read]
  rfl

theorem optional_of_none (refused : p text = none) :
    (optional p : Scanner (Option α)) text = some (none, text) := by
  change ((p text >>= fun result => some (some result.1, result.2)) <|> some (none, text)) = _
  rw [refused]
  rfl

theorem char_cons (c : Char) (rest : List Char) : char c (c :: rest) = some ((), rest) :=
  if_pos rfl

theorem char_of_ne {c d : Char} (hne : d ≠ c) (rest : List Char) : char c (d :: rest) = none :=
  if_neg hne

theorem word_of_ne {c d : Char} (hne : d ≠ c) (name rest : List Char) :
    word (c :: name) (d :: rest) = none :=
  bind_of_none (char_of_ne hne rest)

/-- The scanner reads these one after the other and refuses what is left. -/
inductive Run (p : Scanner α) : List Char → List α → List Char → Prop
  | stop {text : List Char} : p text = none → Run p text [] text
  | step {text rest last : List Char} {a : α} {as : List α} : p text = some (a, rest) →
      rest.length < text.length → Run p rest as last → Run p text (a :: as) last

theorem Run.length_le (run : Run p text as last) : as.length ≤ text.length := by
  induction run with
  | stop => exact Nat.zero_le _
  | step _ shorter _ ih =>
    rw [List.length_cons]
    omega

theorem Run.repeated (run : Run p text as last) {limit : List Char}
    (enough : as.length ≤ limit.length) : repeated p limit text = (as, last) := by
  induction run generalizing limit with
  | stop refused =>
    cases limit with
    | nil => rfl
    | cons c limit => simp only [Scanner.repeated, refused]
  | step read _ _ ih =>
    cases limit with
    | nil => cases enough
    | cons c limit =>
      have hlater := ih (Nat.le_of_succ_le_succ enough)
      simp only [Scanner.repeated, read, hlater]

theorem Run.many (run : Run p text as last) : many p text = some (as, last) := by
  unfold Scanner.many
  rw [run.repeated run.length_le]

theorem commas_of_run (read : p text = some (a, rest))
    (run : Run (do char ','; p) rest as last) : commas p text = some (a :: as, last) := by
  unfold commas
  rw [bind_of_some read, bind_of_some run.many]
  rfl

end ToxEvents.Scanner

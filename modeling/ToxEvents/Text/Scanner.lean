set_option autoImplicit false

namespace ToxEvents

abbrev Scanner (α : Type) := StateT (List Char) Option α

namespace Scanner

variable {α : Type}

def all (p : Scanner α) (text : List Char) : Option α :=
  match p text with
  | some (a, []) => some a
  | _ => none

def span (ok : Char → Bool) : Scanner (List Char) := fun text =>
  some (text.takeWhile ok, text.dropWhile ok)

theorem span_append {ok : Char → Bool} {front rest : List Char} (hf : front.all ok)
    (hr : ∀ c, rest.head? = some c → ok c = false) :
    span ok (front ++ rest) = some (front, rest) := by
  induction front with
  | nil =>
    cases rest with
    | nil => rfl
    | cons c cs => simp [span, hr c rfl]
  | cons c cs ih =>
    simp only [List.all_cons, Bool.and_eq_true] at hf
    have h := ih hf.2
    simp only [span, Option.some.injEq, Prod.mk.injEq] at h ⊢
    simp [hf.1, h.1, h.2]

def skip (ok : Char → Bool) : Scanner Unit := fun text => some ((), text.dropWhile ok)

def span1 (ok : Char → Bool) : Scanner (List Char) := fun text =>
  match text.takeWhile ok with
  | [] => none
  | c :: cs => some (c :: cs, text.dropWhile ok)

def satisfy (ok : Char → Bool) : Scanner Char
  | [] => none
  | c :: cs => if ok c then some (c, cs) else none

def any : Scanner Char
  | [] => none
  | c :: cs => some (c, cs)

def char (c : Char) : Scanner Unit
  | [] => none
  | d :: cs => if d = c then some ((), cs) else none

def word : List Char → Scanner Unit
  | [] => pure ()
  | c :: cs => do char c; word cs

theorem word_append (text rest : List Char) : word text (text ++ rest) = some ((), rest) := by
  induction text with
  | nil => rfl
  | cons c cs ih => simpa [word, char, bind, StateT.bind] using ih

def exactly (n : Nat) (ok : Char → Bool) : Scanner (List Char) := fun text =>
  let front := text.take n
  if front.length = n ∧ front.all ok then some (front, text.drop n) else none

def finish : Scanner Unit
  | [] => some ((), [])
  | _ :: _ => none

def repeated (p : Scanner α) : List Char → List Char → List α × List Char
  | [], text => ([], text)
  | _ :: limit, text =>
    match p text with
    | none => ([], text)
    | some (a, rest) =>
      let (others, last) := repeated p limit rest
      (a :: others, last)

/-- What `p` reads until it refuses. It can take a character no more often than there are any, so
the text itself is the limit. -/
def many (p : Scanner α) : Scanner (List α) := fun text => some (repeated p text text)

def commas (p : Scanner α) : Scanner (List α) := do
  let first ← p
  let others ← many (do char ','; p)
  return first :: others

end Scanner

end ToxEvents

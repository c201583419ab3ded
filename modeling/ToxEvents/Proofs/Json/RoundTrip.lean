import ToxEvents.Proofs.Json.Scalars
set_option autoImplicit false

/-!
# What is written is read back

A value is read from its text wherever the text stands and however far it is moved in, as long as a
comma, a line break or nothing follows. For lists and objects the items are followed one by one:
what stands before an item and behind it is skipped, whatever the item is.
-/
namespace ToxEvents.Json
open Scanner

/-- Neither broken nor a number that is not whole, in any place. -/
inductive Plain : Json → Prop
  | null : Plain .null
  | bool (b : Bool) : Plain (.bool b)
  | int (n : Int) : Plain (.int n)
  | string (text : String) : Plain (.string text)
  | array {items : List Json} : (∀ item ∈ items, Plain item) → Plain (.array items)
  | object {members : List (String × Json)} : (∀ member ∈ members, Plain member.2) →
      Plain (.object members)

theorem separated_cons (text : List Char) (texts : List (List Char)) :
    separated (text :: texts) = text ++ texts.flatMap (',' :: ·) := by
  induction texts generalizing text with
  | nil => simp [separated, List.intercalate]
  | cons next texts ih =>
    have hlater := ih next
    simp [separated, List.intercalate] at hlater ⊢
    exact hlater

theorem length_le_separated {text : List Char} {texts : List (List Char)}
    (member : text ∈ texts) : text.length ≤ (separated texts).length := by
  cases texts with
  | nil => cases member
  | cons first texts =>
    rw [separated_cons, List.length_append]
    rcases List.mem_cons.mp member with rfl | member
    · exact Nat.le_add_right _ _
    · obtain ⟨before, behind, rfl⟩ := List.append_of_mem member
      simp only [List.flatMap_append, List.flatMap_cons, List.length_append, List.length_cons]
      omega

theorem prettyItems_eq (level : Nat) (items : List Json) :
    prettyItems level items = items.map fun item => newline level ++ pretty level item := by
  induction items with
  | nil => rw [prettyItems, List.map_nil]
  | cons item items ih => rw [prettyItems, ih, List.map_cons]

def prettyMember (level : Nat) (member : String × Json) : List Char :=
  quote member.1 ++ ':' :: ' ' :: pretty level member.2

theorem prettyMembers_eq (level : Nat) (members : List (String × Json)) :
    prettyMembers level members =
      members.map fun member => newline level ++ prettyMember level member := by
  induction members with
  | nil => rw [prettyMembers, List.map_nil]
  | cons member members ih =>
    rw [prettyMembers, ih, List.map_cons, prettyMember, ← List.append_assoc]

theorem mapM_inverse {α β : Type} (read : β → Option α) (write : α → β)
    (inverse : ∀ a, read (write a) = some a) (as : List α) :
    (as.map write).mapM read = some as := by
  induction as with
  | nil => rfl
  | cons a as ih => simp [List.mapM_cons, inverse, ih]

theorem ofMembers_some (members : List (String × Json)) :
    ofMembers (members.map fun member => (some member.1, member.2)) = object members := by
  have hnames := mapM_inverse (fun entry => entry.1.map (·, entry.2))
    (fun member : String × Json => (some member.1, member.2)) (fun _ => rfl) members
  unfold ofMembers
  rw [hnames]

namespace Reader

variable {α β : Type} {item : Scanner α} {a : α} {blank text rest last : List Char}

/-- There is a first character and it is no blank. -/
def Solid (text : List Char) : Prop := ∃ c cs, text = c :: cs ∧ isSpace c = false

theorem newline_blank (level : Nat) : ∀ c ∈ newline level, isSpace c := by
  intro c member
  rcases List.mem_cons.mp member with rfl | member
  · rfl
  · rw [List.eq_of_mem_replicate member]
    rfl

theorem Solid.append (solid : Solid text) (rest : List Char) : Solid (text ++ rest) := by
  obtain ⟨c, cs, rfl, hc⟩ := solid
  exact ⟨c, cs ++ rest, rfl, hc⟩

theorem dropWhile_blank (blanks : ∀ c ∈ blank, isSpace c) (solid : Solid text) :
    (blank ++ text).dropWhile isSpace = text := by
  obtain ⟨c, cs, rfl, hc⟩ := solid
  rw [List.dropWhile_append_of_pos blanks, List.dropWhile_cons_of_neg (by simp [hc])]

theorem space_blank (blanks : ∀ c ∈ blank, isSpace c) (solid : Solid text) :
    space (blank ++ text) = some ((), text) := by
  change some ((), (blank ++ text).dropWhile isSpace) = _
  rw [dropWhile_blank blanks solid]

theorem nil_blank : ∀ c ∈ ([] : List Char), isSpace c := List.forall_mem_nil _

theorem space_solid (solid : Solid text) : space text = some ((), text) :=
  space_blank nil_blank solid

/-- The item is read from its text, whatever follows that may follow. -/
structure Reads (item : Scanner α) (text : List Char) (a : α) : Prop where
  solid : Solid text
  read : ∀ {rest : List Char}, Follows rest → item (text ++ rest) = some (a, rest)

def padded (item : Scanner α) : Scanner α := do
  space
  let a ← item
  space
  return a

theorem Reads.padded (reads : Reads item text a) (blanks : ∀ c ∈ blank, isSpace c)
    (follows : Follows rest) :
    padded item (blank ++ (text ++ rest)) = some (a, rest.dropWhile isSpace) := by
  unfold Reader.padded
  rw [bind_of_some (space_blank blanks (reads.solid.append rest)),
    bind_of_some (reads.read follows)]
  rfl

variable (written : β → List Char) (level : Nat)

/-- The items that come later, each after a comma and on a line of its own, and what ends them. -/
def later (xs : List β) (last : List Char) : List Char :=
  (xs.flatMap fun x => ',' :: (newline level ++ written x)) ++ last

theorem later_cons (x : β) (xs : List β) (last : List Char) :
    later written level (x :: xs) last =
      ',' :: (newline level ++ (written x ++ later written level xs last)) := by
  simp [later]

theorem separated_later (x : β) (xs : List β) (last : List Char) :
    separated ((x :: xs).map fun x => newline level ++ written x) ++ last =
      newline level ++ (written x ++ later written level xs last) := by
  simp [separated_cons, later, List.flatMap_map]

theorem follows_later (xs : List β) (outer : Nat) (last : List Char) :
    Follows (later written level xs (newline outer ++ last)) := by
  intro c first
  cases xs with
  | nil => exact .inr (Option.some.inj first).symm
  | cons x xs => exact .inl (Option.some.inj first).symm

variable {written} {result : β → α} {close : Char}

theorem bracket_solid (bracket : close = ']' ∨ close = '}') (rest : List Char) :
    Solid (close :: rest) := by
  rcases bracket with rfl | rfl <;> exact ⟨_, rest, rfl, rfl⟩

theorem run_later {xs : List β} (reads : ∀ x ∈ xs, Reads item (written x) (result x)) (outer : Nat)
    (bracket : close = ']' ∨ close = '}') (rest : List Char) :
    Run (do char ','; padded item)
      ((later written level xs (newline outer ++ close :: rest)).dropWhile isSpace)
      (xs.map result) (close :: rest) := by
  -- An item takes the blanks behind it with it, so each round starts where these have been skipped.
  induction xs with
  | nil =>
    have hclose : close ≠ ',' := by rcases bracket with rfl | rfl <;> decide
    change Run _ ((newline outer ++ close :: rest).dropWhile isSpace) [] _
    rw [dropWhile_blank (newline_blank outer) (bracket_solid bracket rest)]
    exact .stop (bind_of_none (char_of_ne hclose rest))
  | cons x xs ih =>
    have hx := reads x (List.mem_cons_self ..)
    have hlater := ih fun y member => reads y (List.mem_cons_of_mem x member)
    have hfollows := follows_later written level xs outer (close :: rest)
    rw [later_cons, List.dropWhile_cons_of_neg (by decide)]
    generalize later written level xs (newline outer ++ close :: rest) = onward at hlater hfollows ⊢
    refine .step ?_ ?_ hlater
    · rw [bind_of_some (char_cons ..)]
      exact hx.padded (newline_blank level) hfollows
    · have hdrop := (List.dropWhile_sublist (p := isSpace) (l := onward)).length_le
      simp only [List.length_cons, List.length_append]
      omega

theorem items_eq (item : Scanner α) (close : Char) :
    items item close = do
      space
      let found ← optional (commas (padded item))
      char close
      return found.getD [] := rfl

theorem items_written {xs : List β} (reads : ∀ x ∈ xs, Reads item (written x) (result x))
    (filled : xs ≠ []) (outer : Nat) (bracket : close = ']' ∨ close = '}') (rest : List Char) :
    items item close
      (separated (xs.map fun x => newline level ++ written x) ++ (newline outer ++ close :: rest)) =
        some (xs.map result, rest) := by
  cases xs with
  | nil => exact absurd rfl filled
  | cons x xs =>
    have hx := reads x (List.mem_cons_self ..)
    have hlater := run_later level (fun y member => reads y (List.mem_cons_of_mem x member)) outer
      bracket rest
    have hfirst := hx.padded nil_blank
      (follows_later written level xs outer (close :: rest))
    rw [List.nil_append] at hfirst
    rw [items_eq, separated_later, bind_of_some (space_blank (newline_blank level)
      (hx.solid.append _)), bind_of_some (optional_of_some (commas_of_run hfirst hlater)),
      bind_of_some (char_cons ..)]
    rfl

theorem items_none (bracket : close = ']' ∨ close = '}') (refused : item (close :: rest) = none) :
    items item close (close :: rest) = some ([], rest) := by
  have hspace := space_solid (bracket_solid bracket rest)
  have hpadded : padded item (close :: rest) = none := by
    unfold padded
    rw [bind_of_some hspace, bind_of_none refused]
  have hitems : commas (padded item) (close :: rest) = none := bind_of_none hpadded
  rw [items_eq, bind_of_some hspace, bind_of_some (optional_of_none hitems),
    bind_of_some (char_cons ..)]
  rfl

theorem keyword_of_ne {c d : Char} (hne : d ≠ c) (name rest : List Char) (json : Json) :
    keyword (String.ofList (c :: name)) json (d :: rest) = none := by
  unfold keyword
  rw [String.toList_ofList]
  exact bind_of_none (word_of_ne hne name rest)

theorem keyword_append (name : String) (json : Json) (rest : List Char) :
    keyword name json (name.toList ++ rest) = some (json, rest) :=
  bind_of_some (word_append ..)

theorem number_of_ne {c : Char} (hsign : c ≠ '-') (hdigit : c.isDigit = false) (rest : List Char) :
    number (c :: rest) = none := by
  have hwhole : whole (c :: rest) = none := by
    refine bind_of_none ?_
    simp [span1, hdigit]
  unfold number
  rw [bind_of_some (optional_of_none (char_of_ne hsign rest)), bind_of_none hwhole]

theorem text_of_ne {c : Char} (hquote : c ≠ '"') (rest : List Char) :
    Reader.text (c :: rest) = none := bind_of_none (char_of_ne hquote rest)

theorem value_of_head {c : Char} (hnull : c ≠ 'n') (htrue : c ≠ 't') (hfalse : c ≠ 'f')
    (depth : Nat) (rest : List Char) :
    value (depth + 1) (c :: rest) = (number
      <|> (do return (← Reader.text).elim broken string)
      <|> (do char '['; return array (← items (value depth) ']'))
      <|> (do char '{'; return ofMembers (← items (member (value depth)) '}'))) (c :: rest) := by
  rw [value, orElse_of_none (keyword_of_ne hnull ..), orElse_of_none (keyword_of_ne htrue ..),
    orElse_of_none (keyword_of_ne hfalse ..)]

theorem value_bool (b : Bool) (depth : Nat) (rest : List Char) :
    value (depth + 1) (pretty 0 (.bool b) ++ rest) = some (bool b, rest) := by
  cases b with
  | true =>
    refine (orElse_of_none (keyword_of_ne (by decide) ..)).trans ?_
    exact orElse_of_some (keyword_append "true" (bool true) rest)
  | false =>
    refine (orElse_of_none (keyword_of_ne (by decide) ..)).trans ?_
    refine (orElse_of_none (keyword_of_ne (by decide) ..)).trans ?_
    exact orElse_of_some (keyword_append "false" (bool false) rest)

theorem value_toString (n : Int) (depth : Nat) (follows : Follows rest) :
    value (depth + 1) ((toString n).toList ++ rest) = some (int n, rest) := by
  have hnumber := number_toString n follows
  obtain ⟨c, cs, htext, leads⟩ := Text.leads_toString n
  rw [htext, List.cons_append] at hnumber ⊢
  rw [value_of_head (leads.ne (by decide) rfl) (leads.ne (by decide) rfl)
    (leads.ne (by decide) rfl)]
  exact orElse_of_some hnumber

theorem value_quote (s : String) (depth : Nat) (rest : List Char) :
    value (depth + 1) (quote s ++ rest) = some (string s, rest) := by
  have htext := text_quote s rest
  obtain ⟨cs, hquote⟩ : ∃ cs, quote s ++ rest = '"' :: cs := ⟨_, rfl⟩
  rw [hquote] at htext ⊢
  rw [value_of_head (by decide) (by decide) (by decide),
    orElse_of_none (number_of_ne (by decide) rfl cs)]
  exact orElse_of_some (bind_of_some htext)

theorem value_of_bracket {c : Char} (bracket : c ∈ ['[', ']', '{', '}']) (depth : Nat)
    (rest : List Char) :
    value (depth + 1) (c :: rest) = ((do char '['; return array (← items (value depth) ']'))
      <|> (do char '{'; return ofMembers (← items (member (value depth)) '}'))) (c :: rest) := by
  have hc : c ≠ 'n' ∧ c ≠ 't' ∧ c ≠ 'f' ∧ c ≠ '-' ∧ c ≠ '"' ∧ c.isDigit = false := by
    simp only [List.mem_cons, List.not_mem_nil, or_false] at bracket
    rcases bracket with rfl | rfl | rfl | rfl <;> decide
  obtain ⟨hnull, htrue, hfalse, hsign, hquote, hdigit⟩ := hc
  rw [value_of_head hnull htrue hfalse, orElse_of_none (number_of_ne hsign hdigit rest),
    orElse_of_none (bind_of_none (text_of_ne hquote rest))]

theorem value_close (bracket : close = ']' ∨ close = '}') (depth : Nat) (rest : List Char) :
    value depth (close :: rest) = none := by
  cases depth with
  | zero => rfl
  | succ depth =>
    have hclose : close ∈ ['[', ']', '{', '}'] ∧ close ≠ '[' ∧ close ≠ '{' := by
      rcases bracket with rfl | rfl <;> decide
    rw [value_of_bracket hclose.1, orElse_of_none (bind_of_none (char_of_ne hclose.2.1 rest))]
    exact bind_of_none (char_of_ne hclose.2.2 rest)

theorem value_array {depth : Nat} {found : List Json}
    (read : items (value depth) ']' text = some (found, rest)) :
    value (depth + 1) ('[' :: text) = some (array found, rest) := by
  rw [value_of_bracket (by decide)]
  refine orElse_of_some ?_
  rw [bind_of_some (char_cons ..), bind_of_some read]
  rfl

theorem value_object {depth : Nat} {found : List (Option String × Json)}
    (read : items (member (value depth)) '}' text = some (found, rest)) :
    value (depth + 1) ('{' :: text) = some (ofMembers found, rest) := by
  rw [value_of_bracket (by decide), orElse_of_none (bind_of_none (char_of_ne (by decide) text)),
    bind_of_some (char_cons ..), bind_of_some read]
  rfl

theorem quote_solid (s : String) : Solid (quote s) := ⟨'"', _, rfl, rfl⟩

theorem pretty_solid {json : Json} (plain : Plain json) (level : Nat) :
    Solid (pretty level json) := by
  cases plain with
  | null => exact ⟨'n', _, rfl, rfl⟩
  | bool b => cases b <;> exact ⟨_, _, rfl, rfl⟩
  | int n =>
    obtain ⟨c, cs, htext, leads⟩ := Text.leads_toString n
    refine ⟨c, cs, htext, ?_⟩
    simp [isSpace, leads.ne]
  | string text => exact quote_solid text
  | @array items _ => cases items <;> exact ⟨'[', _, rfl, rfl⟩
  | @object members _ => cases members <;> exact ⟨'{', _, rfl, rfl⟩

theorem member_reads {depth level : Nat} {entry : String × Json}
    (reads : Reads (value depth) (pretty level entry.2) entry.2) :
    Reads (member (value depth)) (prettyMember level entry) (some entry.1, entry.2) where
  solid := (quote_solid entry.1).append _
  read {rest} follows := by
    have hcolon : Solid (':' :: ' ' :: (pretty level entry.2 ++ rest)) := ⟨':', _, rfl, rfl⟩
    have hsingle : ∀ c ∈ [' '], isSpace c := List.forall_mem_singleton.mpr rfl
    have hblank : space (' ' :: (pretty level entry.2 ++ rest)) =
        some ((), pretty level entry.2 ++ rest) :=
      space_blank hsingle (reads.solid.append rest)
    unfold member prettyMember
    rw [List.append_assoc, List.cons_append, List.cons_append, bind_of_some (text_quote ..),
      bind_of_some (space_solid hcolon), bind_of_some (char_cons ..), bind_of_some hblank,
      bind_of_some (reads.read follows)]
    rfl

theorem array_reads {items : List Json} {level depth : Nat}
    (reads : ∀ item ∈ items, Reads (value depth) (pretty (level + 1) item) item)
    (rest : List Char) :
    value (depth + 1) (pretty level (array items) ++ rest) = some (array items, rest) := by
  cases items with
  | nil => exact value_array (items_none (.inl rfl) (value_close (.inl rfl) depth rest))
  | cons item items =>
    have hitems : Reader.items (value depth) ']' _ = some ((item :: items).map id, rest) :=
      items_written (level + 1) reads (List.cons_ne_nil _ _) level (.inl rfl) rest
    rw [List.map_id] at hitems
    rw [pretty, prettyItems_eq]
    simpa using value_array hitems

theorem object_reads {members : List (String × Json)} {level depth : Nat}
    (reads : ∀ entry ∈ members, Reads (value depth) (pretty (level + 1) entry.2) entry.2)
    (rest : List Char) :
    value (depth + 1) (pretty level (object members) ++ rest) = some (object members, rest) := by
  cases members with
  | nil =>
    have hnone : member (value depth) ('}' :: rest) = none :=
      bind_of_none (text_of_ne (by decide) rest)
    exact value_object (items_none (.inr rfl) hnone)
  | cons entry members =>
    have hmembers : items (member (value depth)) '}' _ =
        some ((entry :: members).map fun entry => (some entry.1, entry.2), rest) :=
      items_written (level + 1) (fun entry hentry => member_reads (reads entry hentry))
        (List.cons_ne_nil _ _) level (.inr rfl) rest
    have hobject := value_object hmembers
    rw [ofMembers_some] at hobject
    rw [pretty, prettyMembers_eq]
    simpa using hobject

theorem length_item {items : List Json} {item : Json} (member : item ∈ items) (level : Nat) :
    (pretty (level + 1) item).length < (pretty level (array items)).length := by
  have hmember := List.mem_map_of_mem (f := fun item => newline (level + 1) ++
    pretty (level + 1) item) member
  have hlength := length_le_separated hmember
  cases items with
  | nil => cases member
  | cons first items =>
    rw [pretty, prettyItems_eq]
    simp only [List.length_append, List.length_cons] at hlength ⊢
    omega

theorem length_member {members : List (String × Json)} {entry : String × Json}
    (member : entry ∈ members) (level : Nat) :
    (pretty (level + 1) entry.2).length < (pretty level (object members)).length := by
  have hmember := List.mem_map_of_mem (f := fun entry => newline (level + 1) ++
    prettyMember (level + 1) entry) member
  have hlength := length_le_separated hmember
  cases members with
  | nil => cases member
  | cons first members =>
    rw [pretty, prettyMembers_eq]
    simp only [List.length_append, List.length_cons, prettyMember] at hlength ⊢
    omega

theorem value_pretty {json : Json} (plain : Plain json) {level depth : Nat}
    (deep : (pretty level json).length ≤ depth) :
    Reads (value (depth + 1)) (pretty level json) json := by
  -- What lies inside is shorter, so one level less is enough for it.
  induction plain generalizing level depth with
  | null => exact ⟨pretty_solid .null level, fun _ => orElse_of_some (keyword_append ..)⟩
  | bool b => exact ⟨pretty_solid (.bool b) level, fun _ => value_bool b depth _⟩
  | int n => exact ⟨pretty_solid (.int n) level, value_toString n depth⟩
  | string text => exact ⟨pretty_solid (.string text) level, fun _ => value_quote text depth _⟩
  | @array items plain ih =>
    have hitems : ∀ item ∈ items, Reads (value depth) (pretty (level + 1) item) item := by
      intro item member
      have hlength := length_item member level
      obtain ⟨less, rfl⟩ : ∃ less, depth = less + 1 := ⟨depth - 1, by omega⟩
      exact ih item member (by omega)
    exact ⟨pretty_solid (.array plain) level, fun _ => array_reads hitems _⟩
  | @object members plain ih =>
    have hmembers : ∀ entry ∈ members,
        Reads (value depth) (pretty (level + 1) entry.2) entry.2 := by
      intro entry member
      have hlength := length_member member level
      obtain ⟨less, rfl⟩ : ∃ less, depth = less + 1 := ⟨depth - 1, by omega⟩
      exact ih entry member (by omega)
    exact ⟨pretty_solid (.object plain) level, fun _ => object_reads hmembers _⟩

end Reader

theorem read?_render {json : Json} (plain : Plain json) : read? json.render.toList = some json := by
  have hreads := Reader.value_pretty plain (Nat.le_refl (pretty 0 json).length)
  have hend : Reader.Follows [] := fun _ first => nomatch first
  have hread := hreads.read hend
  rw [List.append_nil] at hread
  have halone : Reader.alone (pretty 0 json) (pretty 0 json) = some (json, []) := by
    unfold Reader.alone
    rw [bind_of_some (Reader.space_solid hreads.solid), bind_of_some hread]
    rfl
  unfold read? render Scanner.all
  rw [String.toList_ofList, halone]

end ToxEvents.Json

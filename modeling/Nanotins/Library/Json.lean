import Mathlib.Data.List.TakeWhile
import Nanotins.Library.CString

/-!
Contract: JSON documents written without white space and without escapes.

Owns: documents, their text, a reader of such texts, that reading a text gives the
document that was written (`read_render`), and files with one document a line
(`readLines_writeLines`).

Does not own: what a document says.

Numbers are natural numbers, written without leading zeros.
-/

namespace Nanotins.Library

/-! ### Documents -/

inductive Json where
  | num (value : Nat)
  | str (text : Text)
  | arr (items : List Json)
  | obj (members : List (Text × Json))

/-- Parts with commas between them. -/
def joined : List Text → Text
  | [] => []
  | [part] => part
  | part :: parts => part ++ ',' :: joined parts

theorem joined_cons (part : Text) {parts : List Text} (nonempty : parts ≠ []) :
    joined (part :: parts) = part ++ ',' :: joined parts := by
  cases parts with
  | nil => contradiction
  | cons next parts => rfl

/-- Every part but the last has a comma behind it. -/
theorem joined_concat (parts : List Text) (last : Text) :
    joined (parts ++ [last]) = (parts.flatMap fun part => part ++ [',']) ++ last := by
  induction parts with
  | nil => rfl
  | cons part parts inductionHypothesis =>
      have nonempty : parts ++ [last] ≠ [] := List.concat_ne_nil last parts
      rw [List.cons_append, joined_cons part nonempty, inductionHypothesis, List.flatMap_cons,
        List.append_assoc, List.append_assoc, List.singleton_append]

/-- Append a part, with a comma before all but the first. -/
def appendPart (state : Text × Bool) (part : Text) : Text × Bool :=
  (state.1 ++ if state.2 then part else ',' :: part, false)

theorem foldl_appendPart_false (parts : List Text) (out : Text) :
    (parts.foldl appendPart (out, false)).1 = out ++ parts.flatMap fun part => ',' :: part := by
  induction parts generalizing out with
  | nil => rw [List.foldl_nil, List.flatMap_nil, List.append_nil]
  | cons part parts inductionHypothesis =>
      rw [List.foldl_cons, appendPart, inductionHypothesis, List.flatMap_cons, ← List.append_assoc]
      rfl

theorem joined_cons_eq (part : Text) (parts : List Text) :
    joined (part :: parts) = part ++ parts.flatMap fun part => ',' :: part := by
  induction parts generalizing part with
  | nil => exact (List.append_nil part).symm
  | cons next parts inductionHypothesis =>
      rw [joined, inductionHypothesis, List.flatMap_cons, List.cons_append]
      exact List.cons_ne_nil _ _

/-- A loop that appends parts joins them. -/
theorem foldl_appendPart (parts : List Text) : (parts.foldl appendPart ([], true)).1 = joined parts := by
  cases parts with
  | nil => rfl
  | cons part parts =>
      rw [List.foldl_cons, joined_cons_eq]
      exact foldl_appendPart_false parts part

def quoted (text : Text) : Text := '"' :: (text ++ ['"'])

namespace Json

mutual

/-- The document on one line. -/
def render : Json → Text
  | num value => Nat.toDigits 10 value
  | str text => quoted text
  | arr items => '[' :: (joined (renderItems items) ++ [']'])
  | obj members => '{' :: (joined (renderMembers members) ++ ['}'])

def renderItems : List Json → List Text
  | [] => []
  | item :: items => item.render :: renderItems items

def renderMembers : List (Text × Json) → List Text
  | [] => []
  | (key, value) :: members => (quoted key ++ ':' :: value.render) :: renderMembers members

end

def renderMember (member : Text × Json) : Text := quoted member.1 ++ ':' :: member.2.render

theorem renderItems_eq (items : List Json) : renderItems items = items.map render := by
  induction items with
  | nil => rfl
  | cons item items inductionHypothesis => rw [renderItems, inductionHypothesis, List.map_cons]

theorem renderMembers_eq (members : List (Text × Json)) :
    renderMembers members = members.map renderMember := by
  induction members with
  | nil => rfl
  | cons member members inductionHypothesis =>
      obtain ⟨key, value⟩ := member
      rw [renderMembers, inductionHypothesis, List.map_cons]
      rfl

@[simp] theorem renderMember_str (key text : Text) :
    renderMember (key, .str text) = quoted key ++ ':' :: '"' :: (text ++ ['"']) :=
  rfl

/-- An object, written with a comma behind every member but the last. -/
theorem render_obj_concat (members : List (Text × Json)) (last : Text × Json) :
    (obj (members ++ [last])).render =
      '{' :: ((members.flatMap fun member => renderMember member ++ [',']) ++ renderMember last ++
        ['}']) := by
  rw [render, renderMembers_eq, List.map_append, List.map_singleton, joined_concat,
    List.flatMap_map]

/-- Characters that stand in a string as they are. -/
def plainChar (c : Char) : Bool := ' ' ≤ c && c ≤ '~' && c != '"' && c != '\\'

def PlainText (text : Text) : Prop := ∀ c ∈ text, plainChar c = true

instance (text : Text) : Decidable (PlainText text) := List.decidableBAll _ _

theorem plainChar_of_isDigit {c : Char} (digit : c.isDigit = true) : plainChar c = true := by
  have bounds : c.toNat < 58 ∧ 48 ≤ c.toNat := by
    simp only [Char.isDigit, Bool.and_eq_true, decide_eq_true_eq, ge_iff_le,
      UInt32.le_iff_toNat_le] at digit
    exact ⟨Nat.lt_succ_of_le digit.2, digit.1⟩
  have all : ∀ n < 58, 48 ≤ n → plainChar (Char.ofNat n) = true := by decide
  have own := all c.toNat bounds.1 bounds.2
  rwa [Char.ofNat_toNat] at own

/-- No string of the document needs an escape. -/
inductive Plain : Json → Prop where
  | num (value : Nat) : Plain (num value)
  | str {text : Text} (plain : PlainText text) : Plain (str text)
  | arr {items : List Json} (each : ∀ item ∈ items, Plain item) : Plain (arr items)
  | obj {members : List (Text × Json)} (keys : ∀ member ∈ members, PlainText member.1)
      (values : ∀ member ∈ members, Plain member.2) : Plain (obj members)

theorem plain_obj {members : List (Text × Json)}
    (each : ∀ member ∈ members, PlainText member.1 ∧ member.2.Plain) : (obj members).Plain :=
  .obj (fun member inside => (each member inside).1) (fun member inside => (each member inside).2)

/-! ### Parts of a document -/

/-- The value of the first member with the key. -/
def getMember (key : String) : Json → Option Json
  | obj members => members.lookup key.toList
  | _ => none

theorem getMember_obj_cons (key other : String) (value : Json) (members : List (Text × Json)) :
    (obj ((other.toList, value) :: members)).getMember key =
      if key = other then some value else (obj members).getMember key := by
  rw [getMember, List.lookup_cons]
  by_cases same : key = other
  · rw [if_pos same, same, BEq.rfl]
  · have differ : (key.toList == other.toList) = false :=
      beq_eq_false_iff_ne.mpr fun equal => same (String.toList_inj.mp equal)
    rw [if_neg same, differ, getMember]

theorem getMember_obj_append (key : String) (front back : List (Text × Json)) :
    (obj (front ++ back)).getMember key =
      ((obj front).getMember key).or ((obj back).getMember key) :=
  List.lookup_append

/-- Where the keys differ, a member is found by its key. -/
theorem getMember_of_mem {members : List (Text × Json)} (distinct : (members.map Prod.fst).Nodup)
    {key : String} {value : Json} (member : (key.toList, value) ∈ members) :
    (obj members).getMember key = some value := by
  obtain ⟨before, behind, rfl⟩ := List.append_of_mem member
  rw [List.map_append, List.map_cons] at distinct
  refine List.lookup_eq_some_iff.mpr ⟨before, behind, rfl, fun other earlier => bne_iff_ne.mpr ?_⟩
  intro same
  have repeated := (List.nodup_append.mp distinct).2.2 other.1 (List.mem_map_of_mem earlier)
    key.toList List.mem_cons_self
  exact repeated same.symm

def getNum (key : String) (json : Json) : Option Nat :=
  match json.getMember key with
  | some (num value) => some value
  | _ => none

def getStr (key : String) (json : Json) : Option Text :=
  match json.getMember key with
  | some (str text) => some text
  | _ => none

def getArr (key : String) (json : Json) : Option (List Json) :=
  match json.getMember key with
  | some (arr items) => some items
  | _ => none

/-! ### Reading -/

/-- The text up to the closing quote, and what follows it. -/
def readText : Text → Option (Text × Text)
  | [] => none
  | c :: rest =>
      if c = '"' then some ([], rest)
      else if plainChar c then (readText rest).map fun (text, rest) => (c :: text, rest)
      else none

def readNumber (text : Text) : Option (Nat × Text) :=
  let digits := text.takeWhile Char.isDigit
  let value := Nat.ofDigitChars 10 digits 0
  if Nat.toDigits 10 value = digits then some (value, text.dropWhile Char.isDigit) else none

/-- Parts up to the closing character. -/
def readParts {α : Type} (read : Text → Option (α × Text)) (close : Char) :
    Nat → Text → Option (List α × Text)
  | 0, _ => none
  | fuel + 1, text => do
      let (part, text) ← read text
      match text with
      | [] => none
      | c :: rest =>
          if c = close then return ([part], rest)
          else if c = ',' then
            let (parts, rest) ← readParts read close fuel rest
            return (part :: parts, rest)
          else none

def readList {α : Type} (read : Text → Option (α × Text)) (close : Char) (text : Text) :
    Option (List α × Text) :=
  match text with
  | [] => none
  | c :: rest => if c = close then some ([], rest) else readParts read close text.length text

def readMember (read : Text → Option (Json × Text)) (text : Text) :
    Option ((Text × Json) × Text) :=
  match text with
  | '"' :: rest => do
      let (key, rest) ← readText rest
      match rest with
      | ':' :: rest => (read rest).map fun (value, rest) => ((key, value), rest)
      | _ => none
  | _ => none

/-- The document at the front of the text, nested less than `fuel` deep. -/
def readValue : Nat → Text → Option (Json × Text)
  | 0, _ => none
  | fuel + 1, text =>
      match text with
      | '"' :: rest => (readText rest).map fun (text, rest) => (str text, rest)
      | '[' :: rest => (readList (readValue fuel) ']' rest).map fun (items, rest) => (arr items, rest)
      | '{' :: rest =>
          (readList (readMember (readValue fuel)) '}' rest).map
            fun (members, rest) => (obj members, rest)
      | _ => (readNumber text).map fun (value, rest) => (num value, rest)

/-- The document that the text is. -/
def read (text : Text) : Option Json :=
  match readValue text.length text with
  | some (json, []) => some json
  | _ => none

/-! ### Reading what was written -/

/-- A number is not continued by the text. -/
def Ends (rest : Text) : Prop := ∀ c ∈ rest.head?, c.isDigit = false

theorem ends_cons {c : Char} (other : c.isDigit = false) (rest : Text) : Ends (c :: rest) := by
  intro first head
  cases head
  exact other

section Parts

variable {rest text : Text}

theorem readText_quoted (plain : PlainText text) :
    readText (text ++ '"' :: rest) = some (text, rest) := by
  induction text with
  | nil => rfl
  | cons c text inductionHypothesis =>
      obtain ⟨first, later⟩ := List.forall_mem_cons.mp plain
      have unquoted : c ≠ '"' := by
        rintro rfl
        contradiction
      rw [List.cons_append, readText, if_neg unquoted, if_pos first, inductionHypothesis later]
      rfl

theorem isDigit_of_mem_toDigits {value : Nat} {c : Char} (member : c ∈ Nat.toDigits 10 value) :
    c.isDigit = true :=
  Nat.isDigit_of_mem_toDigits (by decide) (by decide) member

theorem readNumber_toDigits (value : Nat) (ends : Ends rest) :
    readNumber (Nat.toDigits 10 value ++ rest) = some (value, rest) := by
  have digits : ∀ c ∈ Nat.toDigits 10 value, c.isDigit = true :=
    fun c => isDigit_of_mem_toDigits
  have taken : rest.takeWhile Char.isDigit = [] ∧ rest.dropWhile Char.isDigit = rest := by
    cases rest with
    | nil => exact ⟨rfl, rfl⟩
    | cons c rest =>
        have other := ends c rfl
        simp [other]
  rw [readNumber, List.takeWhile_append_of_pos digits, List.dropWhile_append_of_pos digits,
    taken.1, taken.2, List.append_nil, Nat.ofDigitChars_ten_toDigits, if_pos rfl]

theorem length_le_joined (parts : List Text) : parts.length ≤ (joined parts).length + 1 := by
  induction parts with
  | nil => exact Nat.zero_le _
  | cons part parts inductionHypothesis =>
      cases parts with
      | nil => exact Nat.succ_le_succ (Nat.zero_le _)
      | cons next parts =>
          rw [joined_cons part (List.cons_ne_nil _ _), List.length_append, List.length_cons]
          simp only [List.length_cons] at inductionHypothesis ⊢
          omega

theorem le_length_joined {part : Text} {parts : List Text} (member : part ∈ parts) :
    part.length ≤ (joined parts).length := by
  induction parts with
  | nil => contradiction
  | cons first parts inductionHypothesis =>
      cases parts with
      | nil =>
          obtain rfl := List.mem_singleton.mp member
          exact Nat.le_refl _
      | cons next parts =>
          rw [joined_cons first (List.cons_ne_nil _ _), List.length_append, List.length_cons]
          rcases List.mem_cons.mp member with rfl | later
          · omega
          · have := inductionHypothesis later
            omega

variable {α : Type} {read : Text → Option (α × Text)} {write : α → Text} {close : Char}
  {parts : List α}

theorem readParts_joined (closes : close ≠ ',') (undigit : close.isDigit = false)
    (nonempty : parts ≠ [])
    (each : ∀ part ∈ parts, ∀ rest, Ends rest → read (write part ++ rest) = some (part, rest))
    {fuel : Nat} (enough : parts.length ≤ fuel) :
    readParts read close fuel (joined (parts.map write) ++ close :: rest) = some (parts, rest) := by
  induction parts generalizing fuel with
  | nil => contradiction
  | cons part parts inductionHypothesis =>
      obtain ⟨fuel, rfl⟩ : ∃ fewer, fuel = fewer + 1 := ⟨fuel - 1, by simp at enough; omega⟩
      obtain ⟨first, others⟩ := List.forall_mem_cons.mp each
      cases parts with
      | nil =>
          rw [readParts, List.map_singleton, joined, first _ (ends_cons undigit rest)]
          exact if_pos rfl
      | cons next parts =>
          have later := inductionHypothesis (List.cons_ne_nil _ _) others
            (Nat.le_of_succ_le_succ enough)
          have comma : ',' ≠ close := closes.symm
          have more : (next :: parts).map write ≠ [] := List.cons_ne_nil _ _
          rw [List.map_cons, joined_cons _ more, List.append_assoc, readParts, List.cons_append,
            first _ (ends_cons rfl _)]
          dsimp only [bind, Option.bind]
          rw [if_neg comma, if_pos rfl, later]
          rfl

theorem readList_joined (closes : close ≠ ',') (undigit : close.isDigit = false)
    (starts : ∀ part ∈ parts, ∃ c text, write part = c :: text ∧ c ≠ close)
    (each : ∀ part ∈ parts, ∀ rest, Ends rest → read (write part ++ rest) = some (part, rest)) :
    readList read close (joined (parts.map write) ++ close :: rest) = some (parts, rest) := by
  cases parts with
  | nil => exact if_pos rfl
  | cons part parts =>
      have enough : (part :: parts).length ≤
          (joined ((part :: parts).map write) ++ close :: rest).length := by
        have := length_le_joined ((part :: parts).map write)
        rw [List.length_map] at this
        rw [List.length_append, List.length_cons (a := close)]
        omega
      have all : readParts read close (joined ((part :: parts).map write) ++ close :: rest).length
          (joined ((part :: parts).map write) ++ close :: rest) = some (part :: parts, rest) :=
        readParts_joined closes undigit (List.cons_ne_nil _ _) each enough
      obtain ⟨c, text, first, other⟩ := starts part List.mem_cons_self
      have front : ∃ more, joined ((part :: parts).map write) = c :: more := by
        cases parts with
        | nil => exact ⟨text, first⟩
        | cons next parts =>
            have more : (next :: parts).map write ≠ [] := List.cons_ne_nil _ _
            rw [List.map_cons, joined_cons _ more, first]
            exact ⟨_, rfl⟩
      obtain ⟨more, front⟩ := front
      rw [front] at all ⊢
      rw [List.cons_append] at all ⊢
      rw [readList, if_neg other]
      exact all

end Parts

/-- A document starts with a digit, a quote or an opening bracket. -/
theorem render_starts (json : Json) :
    ∃ c text, json.render = c :: text ∧ (c.isDigit = true ∨ c = '"' ∨ c = '[' ∨ c = '{') := by
  cases json with
  | num value =>
      obtain ⟨c, text, same⟩ := List.exists_cons_of_ne_nil (Nat.toDigits_ne_nil (n := value) (b := 10))
      refine ⟨c, text, same, .inl ?_⟩
      exact isDigit_of_mem_toDigits (same ▸ List.mem_cons_self)
  | str text => exact ⟨_, _, rfl, .inr (.inl rfl)⟩
  | arr items => exact ⟨_, _, rfl, .inr (.inr (.inl rfl))⟩
  | obj members => exact ⟨_, _, rfl, .inr (.inr (.inr rfl))⟩

theorem readValue_render {json : Json} (plain : json.Plain) {fuel : Nat}
    (enough : json.render.length ≤ fuel) {rest : Text} (ends : Ends rest) :
    readValue fuel (json.render ++ rest) = some (json, rest) := by
  induction plain generalizing fuel rest with
  | num value =>
      obtain ⟨c, text, same⟩ := List.exists_cons_of_ne_nil (Nat.toDigits_ne_nil (n := value) (b := 10))
      have digit : c.isDigit = true := isDigit_of_mem_toDigits (same ▸ List.mem_cons_self)
      have number := readNumber_toDigits value ends
      rw [render, same] at enough ⊢
      rw [same] at number
      obtain ⟨fuel, rfl⟩ : ∃ fewer, fuel = fewer + 1 := ⟨fuel - 1, by simp at enough; omega⟩
      rw [List.cons_append] at number ⊢
      rw [readValue, number]
      · rfl
      all_goals
        intro rest starts
        obtain rfl := (List.cons.inj starts).1
        contradiction
  | @str text plain =>
      rw [render, quoted] at enough ⊢
      obtain ⟨fuel, rfl⟩ : ∃ fewer, fuel = fewer + 1 := ⟨fuel - 1, by simp at enough; omega⟩
      rw [List.cons_append, List.append_assoc, List.singleton_append, readValue,
        readText_quoted plain]
      rfl
  | @arr items each inductionHypothesis =>
      rw [render, renderItems_eq] at enough ⊢
      rw [List.length_cons, List.length_append] at enough
      obtain ⟨fuel, rfl⟩ : ∃ fewer, fuel = fewer + 1 := ⟨fuel - 1, by omega⟩
      have listed : readList (readValue fuel) ']' (joined (items.map render) ++ ']' :: rest) =
          some (items, rest) := by
        apply readList_joined (by decide) (by decide)
        · intro item _
          obtain ⟨c, text, same, opening⟩ := item.render_starts
          refine ⟨c, text, same, ?_⟩
          rintro rfl
          revert opening
          decide
        · intro item member rest ends
          apply inductionHypothesis item member _ ends
          have := le_length_joined (List.mem_map_of_mem (f := render) member)
          omega
      rw [List.cons_append, List.append_assoc, List.singleton_append, readValue, listed]
      rfl
  | @obj members keys values inductionHypothesis =>
      rw [render, renderMembers_eq] at enough ⊢
      rw [List.length_cons, List.length_append] at enough
      obtain ⟨fuel, rfl⟩ : ∃ fewer, fuel = fewer + 1 := ⟨fuel - 1, by omega⟩
      have listed : readList (readMember (readValue fuel)) '}'
          (joined (members.map renderMember) ++ '}' :: rest) = some (members, rest) := by
        apply readList_joined (by decide) (by decide)
        · exact fun member _ => ⟨'"', _, rfl, by decide⟩
        · intro member inside rest ends
          have bound := le_length_joined (List.mem_map_of_mem (f := renderMember) inside)
          have value : readValue fuel (member.2.render ++ rest) = some (member.2, rest) := by
            apply inductionHypothesis member inside _ ends
            rw [renderMember, List.length_append, List.length_cons] at bound
            omega
          rw [renderMember, quoted, List.cons_append, List.cons_append, List.append_assoc,
            List.append_assoc, List.singleton_append, List.cons_append, readMember,
            readText_quoted (keys member inside)]
          change (readValue fuel (member.2.render ++ rest)).map _ = _
          rw [value]
          rfl
      rw [List.cons_append, List.append_assoc, List.singleton_append, readValue, listed]
      rfl

/-- Reading a document gives what was written. -/
theorem read_render {json : Json} (plain : json.Plain) : read json.render = some json := by
  have ends : Ends [] := fun _ head => by contradiction
  have whole := readValue_render plain (Nat.le_refl _) ends
  rw [List.append_nil] at whole
  rw [read, whole]

/-! ### Lines -/

/-- A file with one document on each line. -/
def writeLines (docs : List Json) : Text := docs.flatMap fun json => json.render ++ ['\n']

/-- The documents of a file whose last line is ended. -/
def readLines (text : Text) : Option (List Json) :=
  let lines := text.splitOn '\n'
  if lines.getLast? = some [] then lines.dropLast.mapM read else none

theorem mem_joined {c : Char} {parts : List Text} (member : c ∈ joined parts) :
    c = ',' ∨ ∃ part ∈ parts, c ∈ part := by
  induction parts with
  | nil => contradiction
  | cons part parts inductionHypothesis =>
      cases parts with
      | nil => exact .inr ⟨part, List.mem_cons_self, member⟩
      | cons next parts =>
          rw [joined_cons part (List.cons_ne_nil _ _), List.mem_append, List.mem_cons] at member
          rcases member with here | comma | later
          · exact .inr ⟨part, List.mem_cons_self, here⟩
          · exact .inl comma
          · rcases inductionHypothesis later with comma | ⟨other, inside, found⟩
            · exact .inl comma
            · exact .inr ⟨other, List.mem_cons_of_mem part inside, found⟩

theorem ne_newline_of_plainChar {c : Char} (plain : plainChar c = true) : c ≠ '\n' := by
  rintro rfl
  contradiction

theorem newline_not_mem_quoted {text : Text} (plain : PlainText text) : '\n' ∉ quoted text := by
  intro member
  rw [quoted, List.mem_cons, List.mem_append, List.mem_singleton] at member
  rcases member with quote | inside | quote
  · contradiction
  · exact ne_newline_of_plainChar (plain _ inside) rfl
  · contradiction

/-- The text of a document is one line. -/
theorem newline_not_mem_render {json : Json} (plain : json.Plain) : '\n' ∉ json.render := by
  induction plain with
  | num value =>
      intro member
      have digit := isDigit_of_mem_toDigits member
      contradiction
  | str plain => exact newline_not_mem_quoted plain
  | @arr items each inductionHypothesis =>
      intro member
      rw [render, renderItems_eq, List.mem_cons, List.mem_append, List.mem_singleton] at member
      rcases member with bracket | inside | bracket
      · contradiction
      · rcases mem_joined inside with comma | ⟨part, listed, found⟩
        · contradiction
        · obtain ⟨item, member, rfl⟩ := List.mem_map.mp listed
          exact inductionHypothesis item member found
      · contradiction
  | @obj members keys values inductionHypothesis =>
      intro member
      rw [render, renderMembers_eq, List.mem_cons, List.mem_append, List.mem_singleton] at member
      rcases member with bracket | inside | bracket
      · contradiction
      · rcases mem_joined inside with comma | ⟨part, listed, found⟩
        · contradiction
        · obtain ⟨item, member, rfl⟩ := List.mem_map.mp listed
          rw [renderMember, List.mem_append, List.mem_cons] at found
          rcases found with key | colon | value
          · exact newline_not_mem_quoted (keys item member) key
          · contradiction
          · exact inductionHypothesis item member value
      · contradiction

theorem splitOn_writeLines {docs : List Json} (plain : ∀ json ∈ docs, json.Plain) :
    (writeLines docs).splitOn '\n' = docs.map render ++ [[]] := by
  induction docs with
  | nil => rfl
  | cons json docs inductionHypothesis =>
      obtain ⟨first, others⟩ := List.forall_mem_cons.mp plain
      have rest := inductionHypothesis others
      rw [writeLines] at rest ⊢
      rw [List.flatMap_cons, List.append_assoc, List.singleton_append,
        List.splitOn_append_cons_self_of_not_mem (newline_not_mem_render first), rest]
      rfl

/-- Reading a file gives the documents that were written, in order. -/
theorem readLines_writeLines {docs : List Json} (plain : ∀ json ∈ docs, json.Plain) :
    readLines (writeLines docs) = some docs := by
  rw [readLines, splitOn_writeLines plain, List.getLast?_concat, if_pos rfl,
    List.dropLast_concat, List.mapM_map]
  induction docs with
  | nil => rfl
  | cons json docs inductionHypothesis =>
      obtain ⟨first, others⟩ := List.forall_mem_cons.mp plain
      rw [List.mapM_cons, inductionHypothesis others, Function.comp_apply, read_render first]
      rfl

end Json

end Nanotins.Library

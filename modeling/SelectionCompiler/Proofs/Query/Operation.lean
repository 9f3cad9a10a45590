import SelectionCompiler.Proofs.OrdMap
import SelectionCompiler.Proofs.Query.Selection

/-!
Reading back named operations. The reader follows the grammar: a word for the kind of operation,
its name, the variables it declares with their types, the root field with the arguments of the
call, and a selection. Declarations and arguments stand in parentheses, which are left out where
there are none. Main statement: the text of an operation is read as that operation, in which each
variable that has a value, and no other, is passed on under its own name, so the text together
with the values that are sent along determines all but the variables without a value.
-/

namespace SelectionCompiler

/-! ### Types -/

namespace Query

open Reader

/-- The type with a mark put on it for each mark of exclamation in front of the tokens. -/
def marked (type : TypeRef) : List Token → TypeRef × List Token
  | .punct '!' :: rest => marked (.nonNull type) rest
  | ts => (type, ts)

def marks (type : TypeRef) : Reader Token TypeRef := fun ts => some (marked type ts)

/-- A type under any number of marks, since the text of a type can have two in a row. The fuel
bounds the nesting. -/
def typeRefWithin : Nat → Reader Token TypeRef
  | 0 => refuse
  | fuel + 1 => do
      match ← next with
      | .name text => marks (.named text)
      | .punct '[' => do
          let item ← typeRefWithin fuel
          expect (.punct ']')
          marks (.list item)
      | _ => refuse

def typeRef : Reader Token TypeRef := do typeRefWithin (← bound)

theorem marked_eq (type : TypeRef) {ts : List Token} (h : ts.head? ≠ some (.punct '!')) :
    marked type ts = (type, ts) := by
  unfold marked
  split
  · exact absurd rfl h
  · rfl

end Query

namespace TypeRef

open Query Reader

variable {type : TypeRef}

def tokens : TypeRef → List Token
  | .named name => [.name name]
  | .list item => .punct '[' :: (item.tokens ++ [.punct ']'])
  | .nonNull inner => inner.tokens ++ [.punct '!']

theorem reads_text (h : Sdl.IsName type.target) :
    Token.lexer.Reads type.text.toList type.tokens := by
  induction type with
  | named name => exact Token.reads_name h
  | list item ih =>
      have htext : (list item).text.toList = '[' :: (item.text.toList ++ [']']) := by
        simp [text]
      rw [htext]
      exact Token.reads_punct rfl ((ih h).append rfl (Token.reads_punct rfl Lexer.reads_nil))
  | nonNull inner ih =>
      have htext : (nonNull inner).text.toList = inner.text.toList ++ ['!'] := by
        simp [text]
      rw [htext]
      exact (ih h).append rfl (Token.reads_punct rfl Lexer.reads_nil)

/-- The marks after the tokens of a type go around it like its own. -/
theorem typeRefWithin_append (type : TypeRef) {fuel : Nat} (h : type.tokens.length ≤ fuel)
    (rest : List Token) : typeRefWithin fuel (type.tokens ++ rest) = some (marked type rest) := by
  induction type generalizing fuel rest with
  | named name =>
      obtain ⟨fuel, rfl⟩ : ∃ n, fuel = n + 1 := ⟨fuel - 1, by simp [tokens] at h; omega⟩
      rfl
  | list item ih =>
      simp only [tokens, List.length_cons, List.length_append, List.length_nil] at h
      obtain ⟨fuel, rfl⟩ : ∃ n, fuel = n + 1 := ⟨fuel - 1, by omega⟩
      have hlength : item.tokens.length ≤ fuel := by omega
      have hitem := ih hlength (.punct ']' :: rest)
      rw [marked_eq item (by simp)] at hitem
      rw [tokens, List.cons_append, List.append_assoc, List.singleton_append]
      change (typeRefWithin fuel (item.tokens ++ .punct ']' :: rest)).bind _ = _
      rw [hitem]
      rfl
  | nonNull inner ih =>
      simp only [tokens, List.length_append, List.length_singleton] at h
      rw [tokens, List.append_assoc, ih (by omega)]
      rfl

theorem takes_typeRef (type : TypeRef) :
    TakesBefore (· ≠ .punct '!') typeRef type.tokens type := by
  intro rest hrest
  have hmark : rest.head? ≠ some (.punct '!') := fun hhead => hrest _ hhead rfl
  change typeRefWithin ((type.tokens ++ rest).length + 1) (type.tokens ++ rest) = _
  rw [typeRefWithin_append type (by rw [List.length_append]; omega), marked_eq type hmark]

end TypeRef

/-! ### Operations -/

namespace Query

open Reader

/-- Items in parentheses, at least one, or no parentheses and no item. -/
def inParentheses {α : Type} (item : Reader Token α) : Reader Token (List α) := do
  if ← accept (.punct '(') then someUntilClose (.punct ')') item else return []

def declaration : Reader Token (String × TypeRef) := do
  expect (.punct '$')
  keyed typeRef

def operationKind : Reader Token OperationKind := do
  match OperationKind.ofText? (← name) with
  | some kind => return kind
  | none => refuse

/-- An operation as it is written. -/
structure Operation where
  kind : OperationKind
  name : String
  declarations : List (String × TypeRef)
  root : String
  arguments : List (String × Value)
  selection : Selection

def operation : Reader Token Operation := do
  let kind ← operationKind
  let operationName ← name
  let declarations ← inParentheses declaration
  expect (.punct '{')
  let root ← name
  let arguments ← inParentheses (keyed value)
  let selection ← selection
  expect (.punct '}')
  return ⟨kind, operationName, declarations, root, arguments, selection⟩

/-! ### Tokens of operations -/

def parenthesizedTokens {α : Type} (write : α → List Token) : List α → List Token
  | [] => []
  | x :: xs => .punct '(' :: ((x :: xs).flatMap write ++ [.punct ')'])

def declarationTokens (d : String × TypeRef) : List Token :=
  .punct '$' :: .name d.1 :: .punct ':' :: d.2.tokens

def Operation.tokens (o : Operation) : List Token :=
  .name o.kind.keyword :: .name o.name ::
    (parenthesizedTokens declarationTokens o.declarations ++ .punct '{' :: .name o.root ::
      (parenthesizedTokens keyedTokens o.arguments ++ .punct '{' ::
        (Element.allTokens o.selection ++ [.punct '}'] ++ [.punct '}'])))

section

variable {α : Type} {item : Reader Token α} {part : α → String} {write : α → List Token}
  {xs : List α}

theorem takes_inParentheses {p : Token → Prop}
    (hitem : ∀ x ∈ xs, TakesBefore p item (write x) x)
    (hhead : ∀ x ∈ xs, ∃ t us, write x = t :: us ∧ t ≠ .punct ')' ∧ p t) (hclose : p (.punct ')')) :
    TakesBefore (· ≠ .punct '(') (inParentheses item) (parenthesizedTokens write xs) xs := by
  cases xs with
  | nil =>
      intro rest hrest
      have hopen : rest.head? ≠ some (.punct '(') := fun hhead => hrest _ hhead rfl
      change (accept (Token.punct '(') rest).bind _ = _
      rw [accept_apply, if_neg hopen]
      rfl
  | cons x xs =>
      have hitems := takes_someUntilClose_before hitem
        (fun y hy => hhead y (List.mem_cons_of_mem x hy)) hclose
      exact (Takes.bind (takes_accept (Token.punct '(')) hitems).before

/-- What stands before parentheses ends where they begin, or at the blank that follows. -/
theorem reads_parenthesized {before after : List Char} {ts us : List Token}
    (hbefore : Token.lexer.Reads before ts)
    (hparts : ∀ x ∈ xs, Token.lexer.Reads (part x).toList (write x))
    (hafter : Token.lexer.Reads after us) :
    Token.lexer.Reads (before ++ ((parenthesized ", " (xs.map part)).toList ++ ' ' :: after))
      (ts ++ (parenthesizedTokens write xs ++ us)) := by
  have hblank : Token.lexer.Reads (' ' :: after) us := Token.reads_ignored rfl hafter
  cases xs with
  | nil => exact hbefore.append rfl hblank
  | cons x xs =>
      have htext : (parenthesized ", " ((x :: xs).map part)).toList ++ ' ' :: after =
          '(' :: ((", ".intercalate ((x :: xs).map part)).toList ++ ')' :: ' ' :: after) := by
        simp [parenthesized]
      have hitems : Token.lexer.Reads (", ".intercalate ((x :: xs).map part)).toList
          ((x :: xs).flatMap write) :=
        Token.reads_intercalate (by decide) (by decide +kernel) hparts
      have htokens : parenthesizedTokens write (x :: xs) ++ us =
          .punct '(' :: ((x :: xs).flatMap write ++ .punct ')' :: us) := by
        simp [parenthesizedTokens]
      rw [htext, htokens]
      exact hbefore.append rfl
        (Token.reads_punct rfl (hitems.append rfl (Token.reads_punct rfl hblank)))

end

theorem takes_declaration (d : String × TypeRef) :
    TakesBefore (· ≠ .punct '!') declaration (declarationTokens d) d :=
  (takes_expect (Token.punct '$')).bind_before (takes_keyed_before d.2.takes_typeRef)

theorem takes_operationKind (kind : OperationKind) :
    Takes operationKind [.name kind.keyword] kind := by
  cases kind <;> exact fun _ => rfl

theorem takes_operation {o : Operation} (h : o.selection.Everywhere Element.NamesField) :
    Takes operation o.tokens o := by
  have hdeclarations : TakesBefore (· ≠ .punct '(') (inParentheses declaration)
      (parenthesizedTokens declarationTokens o.declarations) o.declarations :=
    takes_inParentheses (fun d _ => takes_declaration d) (fun _ _ => ⟨_, _, rfl, by simp⟩) (by simp)
  have harguments : TakesBefore (· ≠ .punct '(') (inParentheses (keyed value))
      (parenthesizedTokens keyedTokens o.arguments) o.arguments :=
    takes_inParentheses (p := fun _ => True) (fun e _ => (takes_keyed (takes_value e.2)).before)
      (fun _ _ => ⟨_, _, rfl, by simp⟩) trivial
  have hclose : Takes (do expect (Token.punct '}'); return o) [.punct '}'] o :=
    (takes_expect (Token.punct '}')).map
  have hselection : Takes (do
        let selection ← selection
        expect (Token.punct '}')
        return { o with selection })
      (.punct '{' :: (Element.allTokens o.selection ++ [.punct '}'] ++ [.punct '}'])) o :=
    Takes.bind (Selection.takes_selection h) hclose
  exact Takes.bind (takes_operationKind o.kind) (Takes.bind (takes_name o.name)
    (TakesBefore.bind hdeclarations (by simp) (Takes.bind (takes_expect (Token.punct '{'))
      (Takes.bind (takes_name o.root) (TakesBefore.bind harguments (by simp) hselection)))))

end Query

namespace Arguments

variable {arguments : Arguments} {key : String} {v : Json}

theorem mem_present : (key, v) ∈ arguments.present ↔ arguments.get? key = some (some v) := by
  rw [OrdMap.get?_eq_some_iff, present, List.mem_filterMap]
  constructor
  · rintro ⟨⟨name, value⟩, hmem, hvalue⟩
    obtain ⟨w, rfl, heq⟩ := Option.map_eq_some_iff.mp hvalue
    obtain ⟨rfl, rfl⟩ := Prod.mk.inj heq
    exact hmem
  · exact fun hmem => ⟨_, hmem, rfl⟩

theorem keys_present_sublist (arguments : Arguments) :
    (arguments.present.map Prod.fst).Sublist arguments.keys := by
  rw [present, OrdMap.keys]
  induction arguments.toList with
  | nil => exact List.Sublist.slnil
  | cons e rest ih =>
      obtain ⟨key, value⟩ := e
      cases value with
      | none => exact ih.cons key
      | some v => exact ih.cons_cons key

end Arguments

namespace NamedOperation

open Query Reader

variable {op other : NamedOperation}

/-- All that is named has a name, each declared type is the text of one, and the selection has no
references. A variable without a value is not written and can be called anything. -/
structure WellFormed (op : NamedOperation) : Prop where
  name : Sdl.IsName op.name
  root : Sdl.IsName op.root
  types : ∀ e ∈ op.variableTypes.toList,
    Sdl.IsName e.1 ∧ ∃ type : TypeRef, Sdl.IsName type.target ∧ e.2 = type.text
  values : ∀ e ∈ op.variableValues.present, Sdl.IsName e.1
  selection : op.selection.Everywhere Element.NamesField

/-- What is written of an operation that declares variables of these types: each argument of the
call is the variable that is called like it and travels with the text. -/
def written (op : NamedOperation) (declarations : List (String × TypeRef)) : Query.Operation where
  kind := op.kind
  name := op.name
  declarations := declarations
  root := op.root
  arguments := op.request.variableValues.map fun e => (e.1, .var e.1)
  selection := op.selection

/-- The same operation with the same values, apart from variables without a value. -/
structure SameRequest (op other : NamedOperation) : Prop where
  kind : op.kind = other.kind
  name : op.name = other.name
  root : op.root = other.root
  selection : op.selection = other.selection
  variableTypes : op.variableTypes = other.variableTypes
  present : op.variableValues.present = other.variableValues.present

def declarationText (d : String × TypeRef) : String × String := (d.1, d.2.text)

theorem exists_declarations {entries : List (String × String)} (h : ∀ e ∈ entries,
    Sdl.IsName e.1 ∧ ∃ type : TypeRef, Sdl.IsName type.target ∧ e.2 = type.text) :
    ∃ declarations : List (String × TypeRef), entries = declarations.map declarationText ∧
      ∀ d ∈ declarations, Sdl.IsName d.1 ∧ Sdl.IsName d.2.target := by
  induction entries with
  | nil => exact ⟨[], rfl, by simp⟩
  | cons e rest ih =>
      obtain ⟨⟨hname, type, htarget, htext⟩, hrest⟩ := List.forall_mem_cons.mp h
      obtain ⟨declarations, rfl, hnames⟩ := ih hrest
      exact ⟨(e.1, type) :: declarations, by rw [List.map_cons, declarationText, ← htext],
        List.forall_mem_cons.mpr ⟨⟨hname, htarget⟩, hnames⟩⟩

theorem reads_declaration {d : String × TypeRef}
    (h : Sdl.IsName d.1 ∧ Sdl.IsName d.2.target) :
    Token.lexer.Reads ("$" ++ d.1 ++ ": " ++ d.2.text).toList (declarationTokens d) := by
  have htext : ("$" ++ d.1 ++ ": " ++ d.2.text).toList =
      '$' :: (d.1.toList ++ ':' :: ' ' :: d.2.text.toList) := by
    simp
  rw [htext]
  exact Token.reads_punct rfl ((Token.reads_name h.1).append rfl
    (Token.reads_punct rfl (Token.reads_ignored rfl (TypeRef.reads_text h.2))))

theorem reads_variable {name : String} (h : Sdl.IsName name) :
    Token.lexer.Reads (name ++ ": $" ++ name).toList (keyedTokens (name, .var name)) := by
  have htext : (name ++ ": $" ++ name).toList =
      name.toList ++ ':' :: ' ' :: '$' :: name.toList := by
    simp
  rw [htext]
  exact (Token.reads_name h).append rfl (Token.reads_punct rfl
    (Token.reads_ignored rfl (Token.reads_punct rfl (Token.reads_name h))))

theorem WellFormed.reads_text (h : op.WellFormed) {declarations : List (String × TypeRef)}
    (htypes : op.variableTypes.toList = declarations.map declarationText)
    (hnames : ∀ d ∈ declarations, Sdl.IsName d.1 ∧ Sdl.IsName d.2.target) :
    Token.lexer.Reads op.text.toList (op.written declarations).tokens := by
  have hdeclarations : op.declarations =
      declarations.map fun d => "$" ++ d.1 ++ ": " ++ d.2.text := by
    rw [NamedOperation.declarations, htypes, List.map_map]
    rfl
  have hcall : op.callArguments =
      (op.written declarations).arguments.map fun e => e.1 ++ ": $" ++ e.1 := by
    rw [callArguments, written, List.map_map]
    rfl
  have hkeyword : Sdl.IsName op.kind.keyword := by
    cases op.kind <;> decide
  have htext : op.text.toList = op.kind.keyword.toList ++ ' ' :: (op.name.toList ++
      ((parenthesized ", " op.declarations).toList ++ ' ' :: '{' :: ' ' :: (op.root.toList ++
        ((parenthesized ", " op.callArguments).toList ++ ' ' ::
          (op.selection.braces.toList ++ [' ', '}']))))) := by
    simp [text]
  have hselection := (Selection.reads_braces h.selection).append rfl
    (Token.reads_ignored (c := ' ') rfl (Token.reads_punct (c := '}') rfl Lexer.reads_nil))
  have hvariable : ∀ e ∈ (op.written declarations).arguments,
      Token.lexer.Reads (e.1 ++ ": $" ++ e.1).toList (keyedTokens e) := by
    intro e he
    obtain ⟨value, hvalue, rfl⟩ := List.mem_map.mp he
    exact reads_variable (h.values value hvalue)
  rw [htext, hdeclarations, hcall]
  exact (Token.reads_name hkeyword).append rfl (Token.reads_ignored rfl
    (reads_parenthesized (Token.reads_name h.name) (fun d hd => reads_declaration (hnames d hd))
      (Token.reads_punct rfl (Token.reads_ignored rfl
        (reads_parenthesized (Token.reads_name h.root) hvariable hselection)))))

/-- The text of a request is read as the operation that it was made from, whose types are told by
their texts. -/
theorem WellFormed.readAll?_text (h : op.WellFormed) :
    ∃ declarations, op.variableTypes.toList = declarations.map declarationText ∧
      readAll? operation op.text = some (op.written declarations) := by
  obtain ⟨declarations, htypes, hnames⟩ := exists_declarations h.types
  have hread := (h.reads_text htypes hnames).tokens?_eq
  exact ⟨declarations, htypes, readAll?_eq hread (takes_operation h.selection)⟩

theorem sameRequest_of_request_eq (h : op.WellFormed) (hother : other.WellFormed)
    (heq : op.request = other.request) : op.SameRequest other := by
  obtain ⟨hquery, hvalues⟩ := Request.mk.inj heq
  obtain ⟨declarations, htypes, hread⟩ := h.readAll?_text
  obtain ⟨others, hothers, hread'⟩ := hother.readAll?_text
  rw [hquery, hread', Option.some_inj] at hread
  obtain ⟨hkind, hname, rfl, hroot, _, hselection⟩ := Query.Operation.mk.inj hread
  exact ⟨hkind.symm, hname.symm, hroot.symm, hselection.symm,
    OrdMap.ext (htypes.trans hothers.symm), hvalues⟩

/-- The text of a request passes on exactly the variables whose values are sent along, in the same
order, and these are the variables that have a value. A request determines the operation but for
its variables without a value. -/
theorem request_faithful (h : op.WellFormed) (hother : other.WellFormed) :
    (∃ declarations, op.variableTypes.toList = declarations.map declarationText ∧
        readAll? operation op.request.query = some (op.written declarations)) ∧
      ((op.request.variableValues.map Prod.fst).Sublist op.variableValues.keys ∧
        ∀ key v, (key, v) ∈ op.request.variableValues ↔
          op.variableValues.get? key = some (some v)) ∧
      (op.request = other.request → op.SameRequest other) :=
  ⟨h.readAll?_text, ⟨Arguments.keys_present_sublist _, fun _ _ => Arguments.mem_present⟩,
    sameRequest_of_request_eq h hother⟩

/-- An empty selection and a nested one, types under several marks, and a variable without a
value between two that have one. -/
def addTracks : NamedOperation where
  kind := .mutation
  name := "AddTracks"
  root := "addTracks"
  selection := [.nested "tracks" [], .field "id", .nested "owner" [.field "name"]]
  variableTypes := ⟨[("ids", "[ID!]!!"), ("at", "Int")], by decide⟩
  variableValues := ⟨[("at", some (.num (.int 3))), ("after", none),
    ("ids", some (.arr [.str "a"]))], by decide⟩

/-- The same call with another variable without a value, in another place. -/
def addTracksBefore : NamedOperation :=
  { addTracks with
    variableValues := ⟨[("before", none), ("at", some (.num (.int 3))),
      ("ids", some (.arr [.str "a"]))], by decide⟩ }

theorem addTracks_types : ∀ e ∈ addTracks.variableTypes.toList,
    Sdl.IsName e.1 ∧ ∃ type : TypeRef, Sdl.IsName type.target ∧ e.2 = type.text := by
  refine List.forall_mem_cons.mpr ⟨⟨by decide, ?_⟩, List.forall_mem_singleton.mpr ⟨by decide, ?_⟩⟩
  · exact ⟨.nonNull (.nonNull (.list (.nonNull (.named "ID")))), by decide, by decide⟩
  · exact ⟨.named "Int", by decide, by decide⟩

theorem addTracks_wellFormed : addTracks.WellFormed :=
  ⟨by decide, by decide, addTracks_types, by decide, by decide⟩

theorem addTracksBefore_wellFormed : addTracksBefore.WellFormed :=
  ⟨by decide, by decide, addTracks_types, by decide, by decide⟩

theorem request_faithful_addTracks :
    addTracks.WellFormed ∧ addTracksBefore.WellFormed ∧
      addTracks.request.query = "mutation AddTracks($ids: [ID!]!!, $at: Int) " ++
        "\x7b addTracks(at: $at, ids: $ids) " ++
        "\x7b tracks \x7b  \x7d id owner \x7b name \x7d \x7d \x7d" ∧
      addTracks.request = addTracksBefore.request ∧ addTracks.SameRequest addTracksBefore := by
  have hrequest : addTracks.request = addTracksBefore.request := rfl
  obtain ⟨_, _, hsame⟩ := request_faithful addTracks_wellFormed addTracksBefore_wellFormed
  exact ⟨addTracks_wellFormed, addTracksBefore_wellFormed, by decide +kernel, hrequest,
    hsame hrequest⟩

end NamedOperation

end SelectionCompiler

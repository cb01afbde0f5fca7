import X402Facilitator.Metrics.Registry

/-!
# The exposition format

A reader of the text format, as its rules have it: comments are skipped, a sample has a name,
labels in braces and a value, and in the value of a label a backslash, a quote and a line
break are escaped.
-/

namespace X402Facilitator.Metrics

open JsString

structure Sample (V : Type) where
  name : JsString
  labels : List (JsString × JsString)
  value : V
  deriving DecidableEq

inductive LineMode where
  | name
  | braces
  | labelName (name : JsString)
  | opened (name : JsString)
  | value (name text : JsString)
  | escaped (name text : JsString)
  | closed
  | gap
  | number (text : JsString)
  deriving DecidableEq

structure LineState where
  name : JsString
  labels : List (JsString × JsString)
  mode : LineMode
  deriving DecidableEq

def unitEquals : UInt16 := 0x3D
def unitComma : UInt16 := 0x2C
def unitOpen : UInt16 := 0x7B
def unitClose : UInt16 := 0x7D
def unitHash : UInt16 := 0x23

def unescape (unit : UInt16) : Option UInt16 :=
  if unit = backslash then some backslash
  else if unit = quote then some quote
  else if unit = 0x6E then some newline
  else none

/-- One character more, none where the line is no sample. -/
def LineState.step (state : LineState) (unit : UInt16) : Option LineState :=
  match state.mode with
  | .name =>
      if unit = unitOpen then some { state with mode := .braces }
      else if unit = space then some { state with mode := .number [] }
      else some { state with name := state.name ++ [unit] }
  | .braces =>
      if unit = unitClose then some { state with mode := .gap }
      else some { state with mode := .labelName [unit] }
  | .labelName name =>
      if unit = unitEquals then some { state with mode := .opened name }
      else some { state with mode := .labelName (name ++ [unit]) }
  | .opened name => if unit = quote then some { state with mode := .value name [] } else none
  | .value name text =>
      if unit = quote then
        some { state with labels := state.labels ++ [(name, text)], mode := .closed }
      else if unit = backslash then some { state with mode := .escaped name text }
      else some { state with mode := .value name (text ++ [unit]) }
  | .escaped name text =>
      (unescape unit).map fun unit => { state with mode := .value name (text ++ [unit]) }
  | .closed =>
      if unit = unitComma then some { state with mode := .braces }
      else if unit = unitClose then some { state with mode := .gap }
      else none
  | .gap => if unit = space then some { state with mode := .number [] } else none
  | .number text =>
      if unit = space then none else some { state with mode := .number (text ++ [unit]) }

def LineState.steps (state : LineState) (string : JsString) : Option LineState :=
  string.foldlM LineState.step state

def LineState.start : LineState := ⟨[], [], .name⟩

variable {V : Type} (numerals : Numerals V)

/-- The sample that has been read at the end of a line. -/
def LineState.finish (state : LineState) : Option (Sample V) :=
  match state.mode with
  | .number text => (numerals.read text).map (⟨state.name, state.labels, ·⟩)
  | _ => none

def readSample (line : JsString) : Option (Sample V) :=
  (LineState.start.steps line).bind (LineState.finish numerals)

/-- The samples of a line: none of a comment or an empty one. -/
def readLine (line : JsString) : Option (List (Sample V)) :=
  if line = [] ∨ line.head? = some unitHash then some []
  else (readSample numerals line).map ([·])

/-- The samples of a text, none where a line is neither a comment nor a sample. -/
def readExposition (text : JsString) : Option (List (Sample V)) :=
  ((text.splitOn newline).mapM (readLine numerals)).map List.flatten

section Lines

variable {numerals} {line string : JsString} {state : LineState}

@[simp]
theorem steps_nil (state : LineState) : state.steps [] = some state := rfl

@[simp]
theorem steps_cons (state : LineState) (unit : UInt16) (string : JsString) :
    state.steps (unit :: string) = (state.step unit).bind fun next => next.steps string := by
  rw [LineState.steps, List.foldlM_cons]
  rfl

theorem steps_append (state : LineState) (x y : JsString) :
    state.steps (x ++ y) = (state.steps x).bind fun next => next.steps y := by
  rw [LineState.steps, List.foldlM_append]
  rfl

variable {rows : List (JsString × List (Sample V))} {lines : List JsString}

/-- Lines that are read one by one are read together. -/
theorem mapM_readLine (hrows : ∀ row ∈ rows, readLine numerals row.1 = some row.2) :
    (rows.map Prod.fst).mapM (readLine numerals) = some (rows.map Prod.snd) := by
  induction rows with
  | nil => rfl
  | cons row rows ih =>
      rw [List.map_cons, List.mapM_cons, hrows row List.mem_cons_self,
        ih fun other hother => hrows other (List.mem_cons_of_mem _ hother)]
      rfl

theorem mapM_readLine_eq_none (hmem : line ∈ lines) (hline : readLine numerals line = none) :
    lines.mapM (readLine numerals) = none := by
  induction lines with
  | nil => cases hmem
  | cons first lines ih =>
      rw [List.mapM_cons]
      rcases List.mem_cons.mp hmem with rfl | hlater
      · rw [hline]
        rfl
      · rw [ih hlater]
        cases readLine numerals first <;> rfl

/-- A text of whole lines is split into them, with nothing after the last. -/
theorem splitOn_lines (hlines : ∀ line ∈ lines, newline ∉ line) :
    (lines.flatMap fun line => line ++ [newline]).splitOn newline = lines ++ [[]] := by
  induction lines with
  | nil => rfl
  | cons line lines ih =>
      have hline : line.splitOn newline = [line] :=
        List.splitOn_eq_singleton (hlines line List.mem_cons_self)
      rw [List.flatMap_cons, List.append_assoc, List.singleton_append,
        List.splitOn_append_cons_self, hline,
        ih fun other hother => hlines other (List.mem_cons_of_mem _ hother)]
      rfl

/-- A text of whole lines is read line by line. -/
theorem readExposition_rows (hwhole : ∀ row ∈ rows, newline ∉ row.1)
    (hrows : ∀ row ∈ rows, readLine numerals row.1 = some row.2) :
    readExposition numerals ((rows.map Prod.fst).flatMap fun line => line ++ [newline]) =
      some (rows.flatMap Prod.snd) := by
  have hempty : readLine numerals [] = some [] := if_pos (.inl rfl)
  have hlines : ∀ line ∈ rows.map Prod.fst, newline ∉ line := by
    intro line hline
    obtain ⟨row, hrow, rfl⟩ := List.mem_map.mp hline
    exact hwhole row hrow
  rw [readExposition, splitOn_lines hlines, List.mapM_append, mapM_readLine hrows,
    List.flatMap_def]
  simp [hempty]

/-- A text with a line that is not read is not read. -/
theorem readExposition_eq_none {before after : JsString} (hwhole : newline ∉ line)
    (hline : readLine numerals line = none) :
    readExposition numerals (before ++ newline :: (line ++ newline :: after)) = none := by
  have hmem : line ∈ (before ++ newline :: (line ++ newline :: after)).splitOn newline := by
    rw [List.splitOn_append_cons_self, List.splitOn_append_cons_self,
      List.splitOn_eq_singleton hwhole]
    simp
  rw [readExposition, mapM_readLine_eq_none hmem hline]
  rfl

end Lines

end X402Facilitator.Metrics

import Tsql.Proofs.Toml.Atoms

/-!
# TOML documents read back

`document` writes the entries of an object one to a line, arrays and objects inside them between brackets and
braces. `read?_document` is that such a document stands for the object, if TOML can say what it holds: no
`null`, whole numbers of sixty-four bits, and no key twice.
-/

namespace Tsql

open Text

namespace Toml

variable {fuel depth : Nat} {r : List Char}

/-! ### Texts -/

mutual

/-- A value on one line. What TOML cannot say has no text. -/
def valueChars : Json → List Char
  | .null => []
  | .bool b => if b then ['t', 'r', 'u', 'e'] else ['f', 'a', 'l', 's', 'e']
  | .number (.integer i) => (intText i).toList
  | .number (.float _) => []
  | .string s => stringChars s
  | .array items => '[' :: List.intercalate [','] (itemTexts items) ++ [']']
  | .object fields => '\x7b' :: List.intercalate [','] (fieldTexts fields) ++ ['\x7d']

def itemTexts : List Json → List (List Char)
  | [] => []
  | j :: rest => valueChars j :: itemTexts rest

def fieldTexts : List (String × Json) → List (List Char)
  | [] => []
  | (k, j) :: rest => (stringChars k ++ '=' :: valueChars j) :: fieldTexts rest

end

def lines (fields : List (String × Json)) : List Char := (fieldTexts fields).flatMap (· ++ ['\n'])

/-- A document with each entry on a line of its own. -/
def document (fields : List (String × Json)) : String := String.ofList (lines fields)

mutual

/-- What TOML can say, nested less deep than some levels: values other than `null`, whole numbers of sixty-four
bits, and objects without a key twice. An object must not look like a moment. -/
def Writable (depth : Nat) : Json → Prop
  | .null | .number (.float _) => False
  | .bool _ | .string _ => True
  | .number (.integer i) => fitsInt64 i = true
  | .array items => 1 < depth ∧ ItemsWritable (depth - 1) items
  | .object fields => 1 < depth ∧ (fields.map Prod.fst).Nodup ∧ (fields.map Prod.fst).head? ≠ some momentKey ∧
    FieldsWritable (depth - 1) fields

def ItemsWritable (depth : Nat) : List Json → Prop
  | [] => True
  | j :: rest => Writable depth j ∧ ItemsWritable depth rest

def FieldsWritable (depth : Nat) : List (String × Json) → Prop
  | [] => True
  | (_, j) :: rest => Writable depth j ∧ FieldsWritable depth rest

end

/-! ### Tables -/

mutual

def Node.ofJson : Json → Node
  | .array items => .array (itemNodes items)
  | .object fields => .table .closed (fieldNodes fields)
  | j => .scalar j

def itemNodes : List Json → List Node
  | [] => []
  | j :: rest => Node.ofJson j :: itemNodes rest

def fieldNodes : List (String × Json) → Fields
  | [] => []
  | (k, j) :: rest => (k, Node.ofJson j) :: fieldNodes rest

end

mutual

/-- A value that TOML can say is the value of its node. -/
theorem json?_ofJson (depth : Nat) (j : Json) (h : Writable depth j) : (Node.ofJson j).json? = some j := by
  match j with
  | .null => cases h
  | .bool b => rfl
  | .number (.integer i) => rfl
  | .number (.float x) => cases h
  | .string s => rfl
  | .array items =>
    rw [Node.ofJson, Node.json?, itemsJson?_itemNodes _ items h.2]
    rfl
  | .object fields =>
    rw [Node.ofJson, Node.json?]
    exact tableJson?_fieldNodes _ fields h.2.2.1 h.2.2.2

theorem itemsJson?_itemNodes (depth : Nat) (items : List Json) (h : ItemsWritable depth items) :
    itemsJson? (itemNodes items) = some items := by
  match items with
  | [] => rfl
  | j :: rest =>
    rw [itemNodes, itemsJson?, json?_ofJson _ j h.1, itemsJson?_itemNodes _ rest h.2]
    rfl

theorem tableJson?_fieldNodes (depth : Nat) (fields : List (String × Json))
    (hkey : (fields.map Prod.fst).head? ≠ some momentKey) (h : FieldsWritable depth fields) :
    tableJson? (fieldNodes fields) = some (.object fields) := by
  match fields with
  | [] => rfl
  | (k, j) :: rest =>
    have hk : k ≠ momentKey := fun heq => hkey (congrArg some heq)
    rw [fieldNodes, tableJson?, if_neg hk, json?_ofJson _ j h.1, fieldsJson?_fieldNodes _ rest h.2]
    rfl

theorem fieldsJson?_fieldNodes (depth : Nat) (fields : List (String × Json)) (h : FieldsWritable depth fields) :
    fieldsJson? (fieldNodes fields) = some fields := by
  match fields with
  | [] => rfl
  | (k, j) :: rest =>
    rw [fieldNodes, fieldsJson?, json?_ofJson _ j h.1, fieldsJson?_fieldNodes _ rest h.2]
    rfl

end

theorem getNode?_eq_none {k : String} {fields : Fields} (h : k ∉ fields.map Prod.fst) :
    getNode? k fields = none := by
  induction fields with
  | nil => rfl
  | cons f rest ih =>
    rw [List.map_cons, List.mem_cons, not_or] at h
    rw [getNode?, List.lookup_cons, beq_eq_false_iff_ne.2 h.1]
    exact ih h.2

theorem putNode_eq_append {k : String} {fields : Fields} (h : k ∉ fields.map Prod.fst) (node : Node) :
    putNode k node fields = fields ++ [(k, node)] := by
  induction fields with
  | nil => rfl
  | cons f rest ih =>
    obtain ⟨key, other⟩ := f
    rw [List.map_cons, List.mem_cons, not_or] at h
    rw [putNode, if_neg (Ne.symm h.1), ih h.2, List.cons_append]

/-- A key that is not there is defined behind the others. -/
theorem define?_of_notMem {k : String} {fields : Fields} (h : k ∉ fields.map Prod.fst) (node : Node) :
    define? ([], k) node fields = some (fields ++ [(k, node)]) := by
  show enter? k node fields = _
  rw [enter?, getNode?_eq_none h, putNode_eq_append h]

/-! ### Values -/

/-- Blanks, line ends and the start of a comment, which readers skip, and the end of an array. -/
def skipped : List Char := [']', ' ', '\t', '\n', '\r', '#']

def Starts (s : List Char) : Prop := ∀ c ∈ s.head?, c ∉ skipped

theorem Starts.cons {c : Char} {t : List Char} (h : c ∉ skipped) : Starts (c :: t) := by
  rintro d ⟨⟩
  exact h

theorem skipSpace_of_starts {s : List Char} (h : Starts s) : skipSpace s = s := by
  cases s with
  | nil => rfl
  | cons c t =>
    have hc := h c rfl
    simp only [skipped, List.mem_cons, List.not_mem_nil, or_false, not_or] at hc
    simp [skipSpace, isSpace, hc]

theorem skipLines?_of_starts {c : Char} {t : List Char} (h : Starts (c :: t)) :
    skipLines? false (c :: t) = some (c :: t) := by
  have hc := h c rfl
  simp only [skipped, List.mem_cons, List.not_mem_nil, or_false, not_or] at hc
  unfold skipLines?
  split
  all_goals simp_all [isSpace]

def itemChars (items : List Json) : List Char := List.intercalate [','] (itemTexts items)

def fieldChars (fields : List (String × Json)) : List Char := List.intercalate [','] (fieldTexts fields)

theorem itemChars_singleton (j : Json) : itemChars [j] = valueChars j := by
  simp [itemChars, itemTexts, List.intercalate]

theorem itemChars_cons_cons (j k : Json) (rest : List Json) :
    itemChars (j :: k :: rest) = valueChars j ++ ',' :: itemChars (k :: rest) := by
  simp [itemChars, itemTexts, List.intercalate]

theorem fieldChars_singleton (k : String) (j : Json) :
    fieldChars [(k, j)] = stringChars k ++ '=' :: valueChars j := by
  simp [fieldChars, fieldTexts, List.intercalate]

theorem fieldChars_cons_cons (k : String) (j : Json) (f : String × Json) (rest : List (String × Json)) :
    fieldChars ((k, j) :: f :: rest) =
      stringChars k ++ '=' :: (valueChars j ++ ',' :: fieldChars (f :: rest)) := by
  simp [fieldChars, fieldTexts, List.intercalate]

theorem valueChars_starts {j : Json} (h : Writable depth j) :
    ∃ c t, valueChars j = c :: t ∧ Starts (c :: t) := by
  match j with
  | .null => cases h
  | .bool true => exact ⟨_, _, rfl, .cons (by decide)⟩
  | .bool false => exact ⟨_, _, rfl, .cons (by decide)⟩
  | .number (.integer i) =>
    obtain ⟨c, t, ht, hc⟩ := intText_cons (show skipped.all _ = true by decide) i
    exact ⟨c, t, ht, .cons hc⟩
  | .number (.float x) => cases h
  | .string s => exact ⟨_, _, rfl, .cons (by decide)⟩
  | .array items => exact ⟨_, _, rfl, .cons (by decide)⟩
  | .object fields => exact ⟨_, _, rfl, .cons (by decide)⟩

/-- With so much fuel, values, items and entries are read from texts that are not too long. -/
structure Reads (fuel : Nat) : Prop where
  value : ∀ {j depth r}, Writable depth j → Follows r → (valueChars j).length ≤ fuel →
    takeValue? fuel depth (valueChars j ++ r) = some (Node.ofJson j, r)
  items : ∀ {items depth r}, items ≠ [] → ItemsWritable depth items → (itemChars items).length < fuel →
    takeItems? fuel depth (itemChars items ++ ']' :: r) = some (itemNodes items, r)
  fields : ∀ {fields depth r} {known : Fields}, fields ≠ [] → FieldsWritable depth fields →
    (known.map Prod.fst ++ fields.map Prod.fst).Nodup → (fieldChars fields).length < fuel →
    takePairs? fuel depth known (fieldChars fields ++ '\x7d' :: r) = some (known ++ fieldNodes fields, r)

theorem takeValue?_plain {s : List Char} {c : Char} {t : List Char} (hs : s = c :: t) (hc : c ∉ ['[', '\x7b']) :
    takeValue? (fuel + 1) depth s = takePlain? s := by
  subst hs
  simp only [List.mem_cons, List.not_mem_nil, or_false, not_or] at hc
  unfold takeValue?
  split
  next t ht => exact absurd (List.cons.inj ht).1 hc.1
  next t ht => exact absurd (List.cons.inj ht).1 hc.2
  · rfl

theorem takeValue?_items {items : List Json} (hd : 1 < depth) (hfuel : 0 < fuel)
    (h : items ≠ [] → takeItems? fuel (depth - 1) (itemChars items ++ ']' :: r) = some (itemNodes items, r)) :
    takeValue? (fuel + 1) depth (valueChars (.array items) ++ r) = some (.array (itemNodes items), r) := by
  have hchars : valueChars (.array items) ++ r = '[' :: (itemChars items ++ ']' :: r) := by
    simp [valueChars, itemChars]
  have hread : takeItems? fuel (depth - 1) (itemChars items ++ ']' :: r) = some (itemNodes items, r) := by
    cases items with
    | nil =>
      obtain ⟨fuel, rfl⟩ : ∃ n, fuel = n + 1 := ⟨fuel - 1, by omega⟩
      rfl
    | cons j rest => exact h (List.cons_ne_nil _ _)
  rw [hchars]
  show (if depth ≤ 1 then none else _) = _
  rw [if_neg (by omega), hread]
  rfl

/-- An object whose entries are read is read. -/
theorem takeValue?_fields {fields : List (String × Json)} (hd : 1 < depth)
    (h : fields ≠ [] →
      takePairs? fuel (depth - 1) [] (fieldChars fields ++ '\x7d' :: r) = some (fieldNodes fields, r)) :
    takeValue? (fuel + 1) depth (valueChars (.object fields) ++ r) =
      some (.table .closed (fieldNodes fields), r) := by
  have hchars : valueChars (.object fields) ++ r = '\x7b' :: (fieldChars fields ++ '\x7d' :: r) := by
    simp [valueChars, fieldChars]
  rw [hchars]
  show (if depth ≤ 1 then none else _) = _
  rw [if_neg (by omega)]
  cases fields with
  | nil => rfl
  | cons f rest =>
    obtain ⟨t, ht⟩ : ∃ t, fieldChars (f :: rest) = '"' :: t := by
      cases rest with
      | nil => exact ⟨_, fieldChars_singleton f.1 f.2⟩
      | cons g rest => exact ⟨_, fieldChars_cons_cons f.1 f.2 g rest⟩
    have hread := h (List.cons_ne_nil _ _)
    rw [ht, List.cons_append] at hread ⊢
    show (takePairs? fuel (depth - 1) [] ('"' :: (t ++ '\x7d' :: r))).map _ = _
    rw [hread]
    rfl

theorem Reads.value_succ (ih : Reads fuel) {j : Json} (h : Writable depth j) (hr : Follows r)
    (hf : (valueChars j).length ≤ fuel + 1) :
    takeValue? (fuel + 1) depth (valueChars j ++ r) = some (Node.ofJson j, r) := by
  match j with
  | .null => cases h
  | .bool true => rfl
  | .bool false => rfl
  | .number (.integer i) =>
    obtain ⟨c, t, ht, hc⟩ := intText_cons (show ['[', '\x7b'].all _ = true by decide) i
    have hchars : (intText i).toList ++ r = c :: (t ++ r) := by rw [ht, List.cons_append]
    exact (takeValue?_plain hchars hc).trans (takePlain?_intText h hr)
  | .number (.float x) => cases h
  | .string s =>
    exact (takeValue?_plain (s := stringChars s ++ r) rfl (by decide)).trans (takePlain?_stringChars s hr)
  | .array items =>
    have hlength : (valueChars (.array items)).length = (itemChars items).length + 2 := by
      simp [valueChars, itemChars]
    exact takeValue?_items h.1 (by omega) fun hne => ih.items hne h.2 (by omega)
  | .object fields =>
    have hlength : (valueChars (.object fields)).length = (fieldChars fields).length + 2 := by
      simp [valueChars, fieldChars]
    exact takeValue?_fields h.1 fun hne => ih.fields hne h.2.2.2 h.2.1 (by omega)

/-- The first item of an array is read as a value. A bracket behind it ends the array, a comma does not. -/
theorem takeItems?_value {node : Node} {s t u : List Char} {c : Char} (hs : s = c :: t)
    (hstarts : Starts (c :: t)) (h : takeValue? fuel depth (s ++ u) = some (node, u)) :
    (u = ']' :: r → takeItems? (fuel + 1) depth (s ++ u) = some ([node], r)) ∧
      ∀ v nodes, u = ',' :: v → takeItems? fuel depth v = some (nodes, r) →
        takeItems? (fuel + 1) depth (s ++ u) = some (node :: nodes, r) := by
  subst hs
  have hskip : skipLines? false (c :: t ++ u) = some (c :: t ++ u) :=
    skipLines?_of_starts (.cons (hstarts c rfl))
  rw [takeItems?, hskip, Option.bind_eq_bind, Option.bind_some]
  split
  next v hv => exact absurd (by simp [skipped, (List.cons.inj hv).1]) (hstarts c rfl)
  next =>
    rw [h]
    constructor
    · rintro rfl
      rfl
    · rintro v nodes rfl hrest
      show (takeItems? fuel depth v).bind _ = _
      rw [hrest]
      rfl

theorem Reads.items_succ (ih : Reads fuel) {items : List Json} (hne : items ≠ [])
    (h : ItemsWritable depth items) (hf : (itemChars items).length < fuel + 1) :
    takeItems? (fuel + 1) depth (itemChars items ++ ']' :: r) = some (itemNodes items, r) := by
  rcases items with _ | ⟨j, _ | ⟨k, rest⟩⟩
  · exact absurd rfl hne
  · obtain ⟨c, t, ht, hstarts⟩ := valueChars_starts h.1
    rw [itemChars_singleton] at hf ⊢
    exact (takeItems?_value ht hstarts (ih.value h.1 (.cons (by decide)) (by omega))).1 rfl
  · obtain ⟨c, t, ht, hstarts⟩ := valueChars_starts h.1
    rw [itemChars_cons_cons, List.length_append, List.length_cons] at hf
    rw [itemChars_cons_cons, List.append_assoc, List.cons_append]
    exact (takeItems?_value ht hstarts (ih.value h.1 (.cons (by decide)) (by omega))).2 _ _ rfl
      (ih.items (List.cons_ne_nil _ _) h.2 (by omega))

theorem takePairs?_entry {known : Fields} {k : String} {j : Json} {u : List Char} {c : Char}
    (hk : k ∉ known.map Prod.fst) (hj : Writable depth j)
    (h : takeValue? fuel depth (valueChars j ++ c :: u) = some (Node.ofJson j, c :: u)) :
    takePairs? (fuel + 1) depth known (stringChars k ++ '=' :: (valueChars j ++ c :: u)) =
      match skipSpace (c :: u) with
      | ',' :: r => takePairs? fuel depth (known ++ [(k, Node.ofJson j)]) r
      | '\x7d' :: r => some (known ++ [(k, Node.ofJson j)], r)
      | _ => none := by
  obtain ⟨d, t, ht, hstarts⟩ := valueChars_starts hj
  have hskip : skipSpace (valueChars j ++ c :: u) = valueChars j ++ c :: u :=
    skipSpace_of_starts (by rw [ht]; exact .cons (hstarts d rfl))
  rw [takePairs?, takeKey?_stringChars, Option.bind_eq_bind, Option.bind_some]
  show (takeValue? fuel depth (skipSpace (valueChars j ++ c :: u))).bind _ = _
  rw [hskip, h, Option.bind_some]
  show (define? ([], k) (Node.ofJson j) known).bind _ = _
  exact (congrArg (Option.bind · _) (define?_of_notMem hk (Node.ofJson j))).trans rfl

theorem Reads.fields_succ (ih : Reads fuel) {fields : List (String × Json)} {known : Fields} (hne : fields ≠ [])
    (h : FieldsWritable depth fields) (hkeys : (known.map Prod.fst ++ fields.map Prod.fst).Nodup)
    (hf : (fieldChars fields).length < fuel + 1) :
    takePairs? (fuel + 1) depth known (fieldChars fields ++ '\x7d' :: r) = some (known ++ fieldNodes fields, r) := by
  rcases fields with _ | ⟨⟨k, j⟩, rest⟩
  · exact absurd rfl hne
  have hk : k ∉ known.map Prod.fst := fun hmem =>
    (List.nodup_append.1 hkeys).2.2 k hmem k (by simp) rfl
  cases rest with
  | nil =>
    rw [fieldChars_singleton, List.length_append, List.length_cons] at hf
    rw [fieldChars_singleton, List.append_assoc, List.cons_append,
      takePairs?_entry hk h.1 (ih.value h.1 (.cons (by decide)) (by omega))]
    rfl
  | cons f rest =>
    have hrest : ((known ++ [(k, Node.ofJson j)]).map Prod.fst ++ (f :: rest).map Prod.fst).Nodup := by
      simpa using hkeys
    rw [fieldChars_cons_cons, List.length_append, List.length_cons, List.length_append, List.length_cons] at hf
    rw [fieldChars_cons_cons, List.append_assoc, List.cons_append, List.append_assoc, List.cons_append,
      takePairs?_entry hk h.1 (ih.value h.1 (.cons (by decide)) (by omega))]
    show takePairs? fuel depth (known ++ [(k, Node.ofJson j)]) (fieldChars (f :: rest) ++ '\x7d' :: r) = _
    rw [ih.fields (List.cons_ne_nil _ _) h.2 hrest (by omega), List.append_assoc]
    rfl

theorem reads (fuel : Nat) : Reads fuel := by
  induction fuel with
  | zero =>
    refine ⟨fun h _ hf => ?_, fun _ _ hf => absurd hf (Nat.not_lt_zero _),
      fun _ _ _ hf => absurd hf (Nat.not_lt_zero _)⟩
    obtain ⟨c, t, hc, -⟩ := valueChars_starts h
    rw [hc, List.length_cons] at hf
    omega
  | succ fuel ih => exact ⟨ih.value_succ, ih.items_succ, ih.fields_succ⟩

/-! ### Documents -/

/-- One line of a document defines one key. -/
theorem takeEntry?_line {d : Draft} {k : String} {j : Json} (hheader : d.header = [])
    (hk : k ∉ d.root.map Prod.fst) (hj : Writable depthLimit j)
    (hfuel : (valueChars j).length ≤ fuel) :
    d.takeEntry? fuel (stringChars k ++ '=' :: (valueChars j ++ '\n' :: r)) =
      some ({ d with root := d.root ++ [(k, Node.ofJson j)] }, r) := by
  obtain ⟨c, t, ht, hstarts⟩ := valueChars_starts hj
  have hskip : skipSpace (valueChars j ++ '\n' :: r) = valueChars j ++ '\n' :: r :=
    skipSpace_of_starts (by rw [ht]; exact .cons (hstarts c rfl))
  have hvalue := (reads fuel).value hj (r := '\n' :: r) (.cons (by decide)) hfuel
  rw [Draft.takeEntry?, takeKey?_stringChars, Option.bind_eq_bind, Option.bind_some]
  show (takeValue? fuel depthLimit (skipSpace (valueChars j ++ '\n' :: r))).bind _ = _
  rw [hskip, hvalue, Option.bind_some]
  show (defineUnder? d.header ([], k) (Node.ofJson j) d.root).bind _ = _
  rw [hheader]
  show (define? ([], k) (Node.ofJson j) d.root).bind _ = _
  rw [define?_of_notMem hk, Option.bind_some]

theorem lines_cons (k : String) (j : Json) (rest : List (String × Json)) :
    lines ((k, j) :: rest) = stringChars k ++ '=' :: (valueChars j ++ '\n' :: lines rest) := by
  simp [lines, fieldTexts]

/-- The lines of a document add their entries one by one. -/
theorem Draft.read?_lines {d : Draft} {fields : List (String × Json)} (hheader : d.header = [])
    (h : FieldsWritable depthLimit fields) (hkeys : (d.root.map Prod.fst ++ fields.map Prod.fst).Nodup)
    (hfuel : (lines fields).length < fuel) :
    Draft.read? fuel d (lines fields) = some { d with root := d.root ++ fieldNodes fields } := by
  induction fields generalizing d fuel with
  | nil =>
    obtain ⟨fuel, rfl⟩ : ∃ n, fuel = n + 1 := ⟨fuel - 1, by omega⟩
    rw [fieldNodes, List.append_nil]
    rfl
  | cons f rest ih =>
    obtain ⟨k, j⟩ := f
    obtain ⟨fuel, rfl⟩ : ∃ n, fuel = n + 1 := ⟨fuel - 1, by omega⟩
    have hk : k ∉ d.root.map Prod.fst := fun hmem =>
      (List.nodup_append.1 hkeys).2.2 k hmem k (by simp) rfl
    rw [lines_cons, List.length_append, List.length_cons, List.length_append, List.length_cons] at hfuel
    rw [lines_cons]
    show (d.takeEntry? fuel (stringChars k ++ '=' :: (valueChars j ++ '\n' :: lines rest))).bind _ = _
    rw [takeEntry?_line hheader hk h.1 (by omega), Option.bind_some]
    have hrest : Draft.read? fuel { d with root := d.root ++ [(k, Node.ofJson j)] } (lines rest) =
        some { d with root := d.root ++ [(k, Node.ofJson j)] ++ fieldNodes rest } :=
      ih hheader h.2 (by simpa using hkeys) (by omega)
    refine hrest.trans ?_
    rw [fieldNodes, List.append_assoc]
    rfl

/-- A document of entries that TOML can say stands for their object. -/
theorem read?_document {fields : List (String × Json)} (h : Writable (depthLimit + 1) (.object fields)) :
    read? (document fields) = some (.object fields) := by
  have hmark : dropMark (lines fields) = lines fields := by
    cases fields with
    | nil => rfl
    | cons f rest =>
      rw [lines_cons]
      rfl
  have hread := Draft.read?_lines (d := {}) rfl h.2.2.2 h.2.1 (Nat.lt_succ_self (lines fields).length)
  show (Draft.read? _ {} (dropMark (document fields).toList)).bind _ = _
  have hdocument : (document fields).toList = lines fields := String.toList_ofList
  rw [hdocument, hmark, hread]
  exact tableJson?_fieldNodes _ fields h.2.2.1 h.2.2.2

end Toml

end Tsql

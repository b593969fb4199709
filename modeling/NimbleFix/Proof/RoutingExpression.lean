import Mathlib.Data.List.SplitBy
import NimbleFix.Runtime.RoutingExpression

/-!
# Written expressions are read back

`written` is the text of comparisons joined by `AND` and `OR`, with single spaces. The parser gives
the comparisons back exactly when all their tags are non-zero and their patterns compile, and the
value of the expression is the disjunction of its maximal runs of conjuncts.
-/

namespace NimbleFix

namespace Router

/-! ## Writing -/

def opText : ExprOp → Bytes
  | .equal => ascii "=="
  | .notEqual => ascii "!="
  | .lessThan => ascii "<"
  | .greaterThan => ascii ">"
  | .contains => ascii "CONTAINS"
  | .regex => ascii "REGEX"
  | .hasTag => ascii "HAS"

def logicText : ExprLogic → Bytes
  | .and => ascii "AND"
  | .or => ascii "OR"

def hasText (tag : Nat) : Bytes := ascii "HAS(" ++ decimal tag ++ ascii ")"

/-- The first token of a comparison. -/
def ExprNode.firstToken (n : ExprNode) : Bytes :=
  if n.op = .hasTag then hasText n.tag.toNat else decimal n.tag.toNat

def ExprNode.tokens (n : ExprNode) : List Bytes :=
  (if n.negated then [ascii "NOT"] else []) ++
    n.firstToken :: if n.op = .hasTag then [] else [opText n.op, n.value]

/-- The clauses of a node and those joined to it. -/
def joined : ExprNode → List (ExprLogic × ExprNode) → List Clause
  | node, [] => [{ node }]
  | node, (connector, next) :: more => { node, connector } :: joined next more

def joinedTokens : ExprNode → List (ExprLogic × ExprNode) → List Bytes
  | node, [] => node.tokens
  | node, (connector, next) :: more =>
    node.tokens ++ logicText connector :: joinedTokens next more

def written (node : ExprNode) (more : List (ExprLogic × ExprNode)) : Bytes :=
  [32].intercalate (joinedTokens node more)

/-- A token as the tokenizer gives it. -/
def IsWord (text : Bytes) : Prop := text ≠ [] ∧ text.all (!isSpace ·) = true

/-- The node has a value exactly where its operator takes one. -/
def ExprNode.Expressible (n : ExprNode) : Prop :=
  if n.op = .hasTag then n.value = [] else IsWord n.value

/-! ## Tokens -/

variable {tokens : List Bytes}

theorem tokenizeFrom_space (fuel : Nat) (text : Bytes) :
    tokenizeFrom fuel (32 :: text) = tokenizeFrom fuel text := by
  cases fuel with
  | zero => rfl
  | succ fuel => simp [tokenizeFrom, isSpace]

theorem tokenizeFrom_word {word tail : Bytes} (hword : IsWord word)
    (htail : ∀ b ∈ tail.head?, isSpace b = true) (fuel : Nat) :
    tokenizeFrom (fuel + 1) (word ++ tail) = word :: tokenizeFrom fuel tail := by
  obtain ⟨b, word, rfl⟩ := List.exists_cons_of_ne_nil hword.1
  have hall := List.all_eq_true.1 hword.2
  have hfirst : isSpace b = false := by simpa using hall b List.mem_cons_self
  have hstop : tail.takeWhile (!isSpace ·) = [] ∧ tail.dropWhile (!isSpace ·) = tail := by
    cases tail with
    | nil => exact ⟨rfl, rfl⟩
    | cons c tail => simp [htail c rfl]
  have hstart : (b :: word ++ tail).dropWhile isSpace = b :: word ++ tail := by simp [hfirst]
  simp only [tokenizeFrom, hstart, List.takeWhile_append_of_pos hall,
    List.dropWhile_append_of_pos hall, hstop.1, hstop.2, List.append_nil]
  simp

theorem tokenizeFrom_flatMap (h : ∀ t ∈ tokens, IsWord t) {fuel : Nat}
    (hfuel : tokens.length ≤ fuel) : tokenizeFrom fuel (tokens.flatMap (32 :: ·)) = tokens := by
  induction tokens generalizing fuel with
  | nil => cases fuel <;> rfl
  | cons word rest ih =>
    rw [List.forall_mem_cons] at h
    rw [List.length_cons] at hfuel
    obtain ⟨fuel, rfl⟩ : ∃ k, fuel = k + 1 := ⟨fuel - 1, by omega⟩
    have htail : ∀ b ∈ (rest.flatMap (32 :: ·)).head?, isSpace b = true := by
      cases rest <;> simp [isSpace]
    rw [List.flatMap_cons, List.cons_append, tokenizeFrom_space, tokenizeFrom_word h.1 htail,
      ih h.2 (by omega)]

theorem intercalate_cons (word : Bytes) (rest : List Bytes) :
    [32].intercalate (word :: rest) = word ++ rest.flatMap (32 :: ·) := by
  induction rest generalizing word with
  | nil => simp [List.intercalate]
  | cons next rest ih =>
    have hstep : [32].intercalate (word :: next :: rest) =
        word ++ 32 :: [32].intercalate (next :: rest) := by
      simp [List.intercalate]
    rw [hstep, ih]
    rfl

theorem tokenize_intercalate (h : ∀ t ∈ tokens, IsWord t) :
    tokenize ([32].intercalate tokens) = tokens := by
  cases tokens with
  | nil => rfl
  | cons word rest =>
    have hword : 0 < word.length := List.length_pos_iff.2 (h word List.mem_cons_self).1
    have hrest : rest.length ≤ (rest.flatMap (32 :: ·)).length := by
      induction rest with
      | nil => exact Nat.le_refl _
      | cons next rest ih =>
        have := ih fun t ht => h t (by grind)
        simp only [List.flatMap_cons, List.length_append, List.length_cons]
        omega
    rw [tokenize, intercalate_cons, ← tokenizeFrom_space]
    refine tokenizeFrom_flatMap h ?_
    rw [List.length_append, List.length_cons]
    omega

/-! ## Reading a clause -/

variable {n node : ExprNode} {more : List (ExprLogic × ExprNode)} {rest : List Bytes}

theorem toUpperAscii_decimal (k : Nat) : toUpperAscii (decimal k) = decimal k := by
  have hsame : ∀ b ∈ decimal k, (if 97 ≤ b ∧ b ≤ 122 then b - 32 else b) = b := fun b hb => by
    have hdigit := List.all_eq_true.1 (decimalAux_reads (Nat.le_refl k)).2.1 b hb
    simp only [isDigit, Bool.and_eq_true, decide_eq_true_eq] at hdigit
    exact if_neg fun h => absurd (UInt8.le_trans h.1 hdigit.2) (by decide)
  rw [toUpperAscii, List.map_congr_left hsame, List.map_id']

theorem findText_eq_none {b : Byte} {text : Bytes} (h : b ∉ text) (pattern : Bytes) :
    findText (b :: pattern) text = none := by
  induction text with
  | nil => rfl
  | cons c text ih =>
    rw [List.mem_cons, not_or] at h
    simp [findText, h.1, ih h.2]

theorem findInlineComparisonOperator_decimal (k : Nat) :
    findInlineComparisonOperator (decimal k) = none := by
  have hequal := findText_eq_none (notMem_decimal (b := 61) rfl k) [61]
  have hnot := findText_eq_none (notMem_decimal (b := 33) rfl k) [61]
  have hless := findText_eq_none (notMem_decimal (b := 60) rfl k) []
  have hgreater := findText_eq_none (notMem_decimal (b := 62) rfl k) []
  simp only [findInlineComparisonOperator]
  exact List.findSome?_eq_none_iff.2 (by simp [ascii, hequal, hnot, hless, hgreater])

theorem parseTag_decimal {tag : UInt32} (h : tag ≠ 0) : parseTag (decimal tag.toNat) = some tag := by
  have hpos : tag.toNat ≠ 0 := fun hzero => h (UInt32.toNat_inj.1 hzero)
  simp [parseTag, parseUint32Strict, parseUint32, parseNat_decimal, tag.toNat_lt, hpos]

theorem toUpperAscii_hasText (k : Nat) : toUpperAscii (hasText k) = hasText k := by
  have hdigits := toUpperAscii_decimal k
  simp only [toUpperAscii, hasText, List.map_append] at hdigits ⊢
  rw [hdigits]
  rfl

theorem parseHasToken_hasText {tag : UInt32} (h : tag ≠ 0) :
    parseHasToken (hasText tag.toNat) = some tag := by
  have htext : hasText tag.toNat = 72 :: 65 :: 83 :: 40 :: (decimal tag.toNat ++ [41]) := rfl
  have hlast : (hasText tag.toNat).getLast? = some 41 :=
    List.getLast?_concat (l := ascii "HAS(" ++ decimal tag.toNat)
  have hpos : 0 < (decimal tag.toNat).length :=
    List.length_pos_iff.2 (decimalAux_reads (Nat.le_refl _)).1
  simp only [parseHasToken, toUpperAscii_hasText]
  rw [if_neg]
  · simp [htext, parseTag_decimal h]
  · rw [hlast, htext]
    simp [ascii]
    omega

theorem parseHasToken_decimal (k : Nat) : parseHasToken (decimal k) = none := by
  have hprefix : ¬ascii "HAS(" <+: decimal k := fun h =>
    notMem_decimal (b := 72) rfl k (h.subset (by decide))
  simp [parseHasToken, toUpperAscii_decimal, hprefix]

theorem parseComparison_node (htag : n.tag ≠ 0) (hn : n.Expressible) (rest : List Bytes) :
    parseComparison n.negated n.firstToken
      ((if n.op = .hasTag then [] else [opText n.op, n.value]) ++ rest) = .ok (n, rest) := by
  obtain ⟨tag, op, value, negated⟩ := n
  have hword : decimal tag.toNat ≠ ascii "HAS" := fun h =>
    notMem_decimal (b := 72) rfl tag.toNat (h ▸ by decide)
  by_cases hop : op = .hasTag
  · subst hop
    obtain rfl : value = [] := by simpa [ExprNode.Expressible] using hn
    simp [parseComparison, ExprNode.firstToken, parseHasToken_hasText htag]
  · simp only [ExprNode.firstToken, hop, if_false, parseComparison, parseHasToken_decimal,
      toUpperAscii_decimal, hword, findInlineComparisonOperator_decimal, parseSpacedClause,
      parseTag_decimal htag, List.cons_append, List.nil_append]
    cases op <;> first | rfl | exact absurd rfl hop

theorem parseClause_tokens (htag : n.tag ≠ 0) (hn : n.Expressible) (rest : List Bytes) :
    parseClause (n.tokens ++ rest) = .ok (n, rest) := by
  have hparsed := parseComparison_node htag hn rest
  cases hneg : n.negated with
  | true =>
    rw [hneg] at hparsed
    simp only [ExprNode.tokens, hneg]
    exact hparsed
  | false =>
    have hword : toUpperAscii n.firstToken ≠ ascii "NOT" := by
      unfold ExprNode.firstToken
      split
      · rw [toUpperAscii_hasText]
        exact fun h => absurd (List.cons.inj h).1 (by decide)
      · rw [toUpperAscii_decimal]
        exact fun h => notMem_decimal (b := 78) rfl n.tag.toNat (h ▸ by decide)
    rw [hneg] at hparsed
    simp only [ExprNode.tokens, hneg, parseClause, Bool.false_eq_true, if_false, List.nil_append,
      List.cons_append, hword]
    exact hparsed

/-! ## Reading an expression -/

/-- The nodes of an expression. -/
def nodes (node : ExprNode) (more : List (ExprLogic × ExprNode)) : List ExprNode :=
  node :: more.map Prod.snd

theorem map_node_joined (node : ExprNode) (more : List (ExprLogic × ExprNode)) :
    (joined node more).map (·.node) = nodes node more := by
  induction more generalizing node with
  | nil => rfl
  | cons next more ih => simp [joined, nodes, ih]

theorem joinedTokens_ne_nil : joinedTokens node more ≠ [] := by
  cases more <;> simp [joinedTokens, ExprNode.tokens]

theorem toUpperAscii_logicText (logic : ExprLogic) :
    toUpperAscii (logicText logic) = logicText logic := by
  cases logic <;> decide

theorem parseClauses_joined (htags : ∀ n ∈ nodes node more, n.tag ≠ 0)
    (hnodes : ∀ n ∈ nodes node more, n.Expressible) {fuel : Nat} (hfuel : more.length < fuel) :
    parseClauses fuel (joinedTokens node more) = .ok (joined node more) := by
  induction more generalizing node fuel with
  | nil =>
    obtain ⟨fuel, rfl⟩ : ∃ k, fuel = k + 1 := ⟨fuel - 1, by omega⟩
    have hparsed := parseClause_tokens (htags node List.mem_cons_self)
      (hnodes node List.mem_cons_self) []
    rw [List.append_nil] at hparsed
    simp only [parseClauses, joinedTokens, hparsed, joined, bind, Except.bind]
  | cons next more ih =>
    obtain ⟨fuel, rfl⟩ : ∃ k, fuel = k + 1 := ⟨fuel - 1, by omega⟩
    obtain ⟨connector, next⟩ := next
    have hparsed := parseClause_tokens (htags node List.mem_cons_self)
      (hnodes node List.mem_cons_self) (logicText connector :: joinedTokens next more)
    have hrest := ih (fun n hn => htags n (List.mem_cons_of_mem _ hn))
      (fun n hn => hnodes n (List.mem_cons_of_mem _ hn)) (Nat.lt_of_succ_lt_succ hfuel)
    simp only [parseClauses, joinedTokens, hparsed, joined, bind, Except.bind,
      toUpperAscii_logicText, joinedTokens_ne_nil, hrest]
    cases connector <;> simp [logicText, ascii]

theorem length_lt_joinedTokens (node : ExprNode) (more : List (ExprLogic × ExprNode)) :
    more.length < (joinedTokens node more).length := by
  induction more generalizing node with
  | nil => simp [joinedTokens, ExprNode.tokens]
  | cons next more ih =>
    have := ih next.2
    simp only [joinedTokens, List.length_append, List.length_cons]
    omega

theorem isWord_decimal (k : Nat) : IsWord (decimal k) := by
  refine ⟨(decimalAux_reads (Nat.le_refl k)).1, List.all_eq_true.2 fun b hb => ?_⟩
  have hne : ∀ c : Byte, isDigit c = false → b ≠ c := fun c hc he => notMem_decimal hc k (he ▸ hb)
  simp [isSpace, hne 32 rfl, hne 9 rfl, hne 10 rfl, hne 13 rfl]

theorem isWord_hasText (k : Nat) : IsWord (hasText k) := by
  refine ⟨by simp [hasText, ascii], ?_⟩
  rw [hasText, List.all_append, List.all_append, (isWord_decimal k).2]
  rfl

theorem isWord_tokens (hn : n.Expressible) : ∀ t ∈ n.tokens, IsWord t := by
  have hnot : IsWord (ascii "NOT") := ⟨by decide, by decide⟩
  have hop : IsWord (opText n.op) := by cases n.op <;> exact ⟨by decide, by decide⟩
  unfold ExprNode.Expressible at hn
  unfold ExprNode.tokens ExprNode.firstToken
  by_cases h : n.op = .hasTag
  · cases n.negated <;> simp [h, hnot, isWord_hasText]
  · rw [if_neg h] at hn
    cases n.negated <;> simp [h, hnot, hop, hn, isWord_decimal]

theorem isWord_joinedTokens (hnodes : ∀ n ∈ nodes node more, n.Expressible) :
    ∀ t ∈ joinedTokens node more, IsWord t := by
  induction more generalizing node with
  | nil => exact isWord_tokens (hnodes node List.mem_cons_self)
  | cons next more ih =>
    have hlogic : IsWord (logicText next.1) := by cases next.1 <;> exact ⟨by decide, by decide⟩
    simp only [joinedTokens, List.forall_mem_append, List.forall_mem_cons]
    exact ⟨isWord_tokens (hnodes node List.mem_cons_self), hlogic,
      ih fun n hn => hnodes n (List.mem_cons_of_mem _ hn)⟩

/-! ### Accepted expressions -/

theorem parseTag_ne_zero {text : Bytes} {tag : UInt32} (h : parseTag text = some tag) : tag ≠ 0 := by
  obtain ⟨value, hvalue, rfl⟩ := Option.map_eq_some_iff.1 h
  have hfits : parseUint32 text < 2 ^ 32 := by
    unfold parseUint32
    split
    · split <;> omega
    · decide
  simp only [parseUint32Strict, Option.ite_none_left_eq_some, Option.some.injEq] at hvalue
  obtain ⟨hpos, rfl⟩ := hvalue
  intro hzero
  have := congrArg UInt32.toNat hzero
  rw [UInt32.toNat_ofNat_of_lt' hfits] at this
  exact hpos this

theorem parseHasToken_ne_zero {token : Bytes} {tag : UInt32} (h : parseHasToken token = some tag) :
    tag ≠ 0 := by
  unfold parseHasToken at h
  dsimp only at h
  split at h
  · cases h
  · exact parseTag_ne_zero h

theorem parseComparison_ok {negated : Bool} {token : Bytes}
    (h : parseComparison negated token tokens = .ok (n, rest)) : n.tag ≠ 0 := by
  unfold parseComparison parseHasClause parseInlineClause parseSpacedClause at h
  dsimp only at h
  repeat' split at h
  all_goals cases h
  all_goals first | exact parseTag_ne_zero ‹_› | exact parseHasToken_ne_zero ‹_›

theorem parseClause_ok (h : parseClause tokens = .ok (n, rest)) : n.tag ≠ 0 := by
  unfold parseClause at h
  repeat' split at h
  all_goals first | cases h | exact parseComparison_ok h

theorem parseClauses_ok {fuel : Nat} {clauses : List Clause}
    (h : parseClauses fuel tokens = .ok clauses) : ∀ c ∈ clauses, c.node.tag ≠ 0 := by
  induction fuel generalizing tokens clauses with
  | zero =>
    cases h
    exact nofun
  | succ fuel ih =>
    obtain ⟨⟨node, rest⟩, hnode, h⟩ := exceptBind_ok h
    have htag := parseClause_ok hnode
    dsimp only at h
    split at h
    · cases h
      simpa using htag
    split at h
    · cases h
    split at h
    · cases h
    obtain ⟨more, hmore, h⟩ := exceptBind_ok h
    cases h
    exact List.forall_mem_cons.2 ⟨htag, ih hmore⟩

/-- An expression is read back exactly when the parser accepts all its tags and patterns. -/
theorem parse_written (cmp : Comparisons) (hnodes : ∀ n ∈ nodes node more, n.Expressible) :
    parseRoutingExpression cmp (written node more) = .ok (joined node more) ↔
      ∀ n ∈ nodes node more, n.tag ≠ 0 ∧ (n.op = .regex → cmp.regexCompiles n.value) := by
  have htokens : tokenize (written node more) = joinedTokens node more :=
    tokenize_intercalate (isWord_joinedTokens hnodes)
  have hregex : ((joined node more).any fun c =>
      c.node.op = .regex ∧ !cmp.regexCompiles c.node.value) = false ↔
        ∀ n ∈ nodes node more, n.op = .regex → cmp.regexCompiles n.value := by
    simp [← map_node_joined node more]
  rw [forall₂_and, ← hregex]
  simp only [parseRoutingExpression, htokens, joinedTokens_ne_nil, if_false]
  constructor
  · intro h
    obtain ⟨clauses, hclauses, h⟩ := exceptBind_ok h
    split at h
    · cases h
    · rename_i hcompiles
      cases h
      refine ⟨?_, Bool.eq_false_iff.2 hcompiles⟩
      simp only [← map_node_joined node more, List.forall_mem_map]
      exact parseClauses_ok hclauses
  · intro h
    rw [parseClauses_joined h.1 hnodes (length_lt_joinedTokens node more)]
    simp only [bind, Except.bind, h.2, Bool.false_eq_true, if_false]

/-! ## Evaluation -/

/-- The maximal runs of clauses joined by `AND`. -/
def andRuns (clauses : List Clause) : List (List Clause) :=
  clauses.splitBy fun c _ => c.connector = .and

/-- The loop has the current run in `currentAndGroup` and the runs before it in `result`. -/
theorem evaluateFrom_eq (cmp : Comparisons) (m : RoutedMessage) (cs : List Clause) (c : Clause)
    (run : List Clause) (runs : List (List Clause)) :
    evaluateFrom cmp m c.connector cs ((c :: run).all fun c => evaluateNode cmp m c.node)
        (runs.any (·.all fun c => evaluateNode cmp m c.node)) =
      (List.splitBy.loop (fun c _ => c.connector = .and) cs c run runs).any
        (·.all fun c => evaluateNode cmp m c.node) := by
  induction cs generalizing c run runs with
  | nil => simp [evaluateFrom, List.splitBy.loop, Bool.or_comm, Bool.and_comm]
  | cons d cs ih =>
    cases hconnector : c.connector with
    | and =>
      simp only [evaluateFrom, List.splitBy.loop, hconnector, decide_true, ← ih d (c :: run) runs]
      rw [Bool.and_comm]
      rfl
    | or =>
      simp only [evaluateFrom, List.splitBy.loop, hconnector, reduceCtorEq, decide_false,
        ← ih d [] ((c :: run).reverse :: runs)]
      simp [Bool.or_comm, Bool.and_comm]

theorem evaluateExpression_andRuns (cmp : Comparisons) (clauses : List Clause) (m : RoutedMessage) :
    evaluateExpression cmp clauses m =
      (andRuns clauses).any (·.all fun c => evaluateNode cmp m c.node) := by
  cases clauses with
  | nil => rfl
  | cons c cs =>
    have hloop := evaluateFrom_eq cmp m cs c [] []
    rw [List.all_cons, List.all_nil, Bool.and_true, List.any_nil] at hloop
    exact hloop

/-- What is written is read back, and means the disjunction of its runs of conjuncts. -/
theorem expression_read_back (cmp : Comparisons) (hnodes : ∀ n ∈ nodes node more, n.Expressible) :
    (parseRoutingExpression cmp (written node more) = .ok (joined node more) ↔
      ∀ n ∈ nodes node more, n.tag ≠ 0 ∧ (n.op = .regex → cmp.regexCompiles n.value)) ∧
    ∀ m, evaluateExpression cmp (joined node more) m =
      (andRuns (joined node more)).any (·.all fun c => evaluateNode cmp m c.node) :=
  ⟨parse_written cmp hnodes, evaluateExpression_andRuns cmp (joined node more)⟩

def sampleComparisons : Comparisons where
  numericLess _ _ := false
  regexCompiles pattern := pattern ≠ ascii "("
  regexMatches _ _ := false

/-- The text is `55 == AND OR NOT HAS(58)`. -/
theorem expression_read_back_sample :
    parseRoutingExpression sampleComparisons
        (written { tag := 55, value := ascii "AND" }
          [(.or, { tag := 58, op := .hasTag, negated := true })]) =
      .ok (joined { tag := 55, value := ascii "AND" }
        [(.or, { tag := 58, op := .hasTag, negated := true })]) := by
  refine (expression_read_back sampleComparisons ?_).1.2 ?_
  · simp [nodes, ExprNode.Expressible]
    exact ⟨by decide, by decide⟩
  · simp [nodes]

/-- A tag `0` and a pattern that does not compile are refused. -/
theorem expression_not_read_back :
    parseRoutingExpression sampleComparisons (written { value := ascii "x" } []) = .error invalidTag ∧
      parseRoutingExpression sampleComparisons
          (written { tag := 55, op := .regex, value := ascii "(" } []) =
        .error (.InvalidArgument "routing expression contains an invalid regex") :=
  ⟨rfl, rfl⟩

end Router

end NimbleFix

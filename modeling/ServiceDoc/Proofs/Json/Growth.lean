import ServiceDoc.Proofs.Json.Spelling

/-! The tree of a written text. The tokens of data put one value in the place that is open, whatever
stands around it, so a text that is written whole is read as one tree with nothing after it. -/
namespace ServiceDoc.Json
namespace Tree

mutual

/-- The tree that written data is read as. Doubles are left out. -/
def written : Datum → Tree
  | .null => .null
  | .bool b => .bool b
  | .int n => .number (.written n)
  | .float _ => .null
  | .text s => .text (.written s)
  | .list items => .list (writtenItems items) none
  | .map members => .object (writtenMembers members) none

def writtenItems : List Datum → List Tree
  | [] => []
  | d :: ds => written d :: writtenItems ds

def writtenMembers : List (String × Datum) → List (QuotedText × Tree)
  | [] => []
  | (key, d) :: rest => (.written key, written d) :: writtenMembers rest

end

def resume (ts : List Token) : State → Tree × List Token
  | .expecting e frames => grow ts e frames
  | .complete v => (v, ts)
  | .cut v => (v, [])

theorem grow_cons (t : Token) (ts : List Token) (e : Expecting) (frames : List Frame) :
    grow (t :: ts) e frames = resume ts (step t frames e) := by
  cases next : step t frames e with
  | expecting e' frames' => simp only [grow, next, resume]
  | complete v => simp only [grow, next, resume]
  | cut v => simp only [grow, next, resume]

/-- Where a value may start. -/
def Expecting.takesValue : Expecting → Bool
  | .value | .firstItem | .nextItem => true
  | _ => false

theorem step_value {t : Token} {e : Expecting} (takes : e.takesValue = true)
    (other : t ≠ .closeList) (frames : List Frame) : step t frames e = start frames t := by
  cases e with
  | value => rfl
  | firstItem => exact if_neg other
  | nextItem => exact if_neg other
  | firstKey => cases takes
  | nextKey => cases takes
  | colon => cases takes
  | afterEntry => cases takes

theorem grow_start {t : Token} {e : Expecting} (takes : e.takesValue = true)
    (other : t ≠ .closeList) (ts : List Token) (frames : List Frame) :
    grow (t :: ts) e frames = resume ts (start frames t) := by
  rw [grow_cons, step_value takes other]

/-- The first or a later key of the innermost object, and its colon. -/
theorem grow_key {e : Expecting} (takes : e = .firstKey ∨ e = .nextKey) (q : QuotedText)
    (ts : List Token) (done : List (QuotedText × Tree)) (frames : List Frame) :
    grow (.text q :: .colon :: ts) e (.members done :: frames) =
      grow ts .value (.member done q :: frames) := by
  rw [grow_cons]
  rcases takes with rfl | rfl <;> exact grow_cons .colon ts .colon (.member done q :: frames)

mutual

/-- The tokens of data are taken as one value. -/
theorem grow_tokens : ∀ (d : Datum) (ts : List Token) {e : Expecting} (frames : List Frame),
    d.floatFree = true → e.takesValue = true →
      grow (Datum.tokens d ++ ts) e frames = resume ts (place (written d) frames)
  | .null, ts, _, frames, _, takes => grow_start takes Token.noConfusion ts frames
  | .bool _, ts, _, frames, _, takes => grow_start takes Token.noConfusion ts frames
  | .int _, ts, _, frames, _, takes => grow_start takes Token.noConfusion ts frames
  | .text _, ts, _, frames, _, takes => grow_start takes Token.noConfusion ts frames
  | .list [], ts, _, frames, _, takes => by
      simp only [Datum.tokens, List.cons_append, List.nil_append]
      rw [grow_start takes Token.noConfusion]
      exact grow_cons .closeList ts .firstItem (.items [] :: frames)
  | .list (d :: ds), ts, _, frames, free, takes => by
      obtain ⟨first, others⟩ := Bool.and_eq_true_iff.mp free
      simp only [Datum.tokens, List.cons_append, List.append_assoc]
      rw [grow_start takes Token.noConfusion]
      exact (grow_tokens d _ (.items [] :: frames) first rfl).trans
        (grow_itemTokens ds ts [written d] frames others)
  | .map [], ts, _, frames, _, takes => by
      simp only [Datum.tokens, List.cons_append, List.nil_append]
      rw [grow_start takes Token.noConfusion]
      exact grow_cons .closeObject ts .firstKey (.members [] :: frames)
  | .map ((key, d) :: ms), ts, _, frames, free, takes => by
      obtain ⟨first, others⟩ := Bool.and_eq_true_iff.mp free
      simp only [Datum.tokens, List.cons_append, List.append_assoc]
      rw [grow_start takes Token.noConfusion]
      refine (grow_key (.inl rfl) _ _ [] frames).trans ?_
      exact (grow_tokens d _ (.member [] (.written key) :: frames) first rfl).trans
        (grow_memberTokens ms ts [(.written key, written d)] frames others)

theorem grow_itemTokens : ∀ (ds : List Datum) (ts : List Token) (done : List Tree)
    (frames : List Frame), Datum.floatFreeItems ds = true →
      grow (Datum.itemTokens ds ++ ts) .afterEntry (.items done :: frames) =
        resume ts (place (.list (done.reverse ++ writtenItems ds) none) frames)
  | [], ts, done, frames, _ => by
      rw [writtenItems, List.append_nil]
      exact grow_cons .closeList ts .afterEntry (.items done :: frames)
  | d :: ds, ts, done, frames, free => by
      obtain ⟨first, others⟩ := Bool.and_eq_true_iff.mp free
      simp only [Datum.itemTokens, List.cons_append, List.append_assoc]
      rw [grow_cons]
      refine (grow_tokens d _ (.items done :: frames) first rfl).trans ?_
      refine (grow_itemTokens ds ts (written d :: done) frames others).trans ?_
      rw [List.reverse_cons, List.append_assoc]
      rfl

theorem grow_memberTokens : ∀ (ms : List (String × Datum)) (ts : List Token)
    (done : List (QuotedText × Tree)) (frames : List Frame), Datum.floatFreeMembers ms = true →
      grow (Datum.memberTokens ms ++ ts) .afterEntry (.members done :: frames) =
        resume ts (place (.object (done.reverse ++ writtenMembers ms) none) frames)
  | [], ts, done, frames, _ => by
      rw [writtenMembers, List.append_nil]
      exact grow_cons .closeObject ts .afterEntry (.members done :: frames)
  | (key, d) :: ms, ts, done, frames, free => by
      obtain ⟨first, others⟩ := Bool.and_eq_true_iff.mp free
      simp only [Datum.memberTokens, List.cons_append, List.append_assoc]
      rw [grow_cons]
      refine (grow_key (.inr rfl) _ _ done frames).trans ?_
      refine (grow_tokens d _ (.member done (.written key) :: frames) first rfl).trans ?_
      refine (grow_memberTokens ms ts ((.written key, written d) :: done) frames others).trans ?_
      rw [List.reverse_cons, List.append_assoc]
      rfl

end

theorem grow_written (d : Datum) (h : d.floatFree = true) :
    grow (Datum.tokens d) .value [] = (written d, []) := by
  have whole := grow_tokens d [] (e := .value) [] h rfl
  rw [List.append_nil] at whole
  exact whole

end Tree

theorem Text.read_ofList {cs : List Char} {d : Datum} (free : d.floatFree = true)
    (scanned : Token.scan cs = Datum.tokens d) :
    Text.read (String.ofList cs) = ⟨Tree.written d, false⟩ := by
  simp only [Text.read, String.toList_ofList, scanned, Tree.grow_written d free]
  rfl

theorem Text.read_write (d : Datum) (h : d.floatFree = true) :
    Text.read (write d) = ⟨Tree.written d, false⟩ := by
  have scanned := scan_compact d [] h rfl
  simp only [List.append_nil, Token.scan_nil] at scanned
  exact read_ofList h scanned

theorem Text.read_writeIndented (d : Datum) (h : d.floatFree = true) :
    Text.read (writeIndented d) = ⟨Tree.written d, false⟩ := by
  have scanned := scan_indented 0 d [] h rfl
  simp only [List.append_nil, Token.scan_nil] at scanned
  exact read_ofList h scanned

end ServiceDoc.Json

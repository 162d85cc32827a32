import ServiceDoc.Json.Token

/-! Scanning one token at a time. Every lexeme leaves less text than it was given, so the scan never
runs out of steps, and what it does with a text is told by its first character: a space is passed
over, anything else starts a token. -/
namespace ServiceDoc.Json

theorem ok_of_map {ε α β : Type} {x : Except ε α} {f : α → β} {b : β} (h : x.map f = .ok b) :
    ∃ a, x = .ok a ∧ f a = b := by
  cases x with
  | error e => cases h
  | ok a => exact ⟨a, rfl, Except.ok.inj h⟩

theorem ok_of_bind {ε α β : Type} {x : Except ε α} {f : α → Except ε β} {b : β}
    (h : (x >>= f) = .ok b) : ∃ a, x = .ok a ∧ f a = .ok b := by
  cases x with
  | error e => cases h
  | ok a => exact ⟨a, rfl, h⟩

theorem ok_of_mapError_map {ε δ α β : Type} {x : Except ε α} {f : α → β} {g : ε → δ} {b : β}
    (h : (x.map f).mapError g = .ok b) : ∃ a, x = .ok a ∧ f a = b := by
  cases x with
  | error e => cases h
  | ok a => exact ⟨a, rfl, Except.ok.inj h⟩

theorem QuotedText.length_takeAfter (done : List Piece) (cs : List Char) {q : QuotedText}
    {rest : List Char} (h : takeAfter done cs = .ok (q, rest)) : rest.length < cs.length := by
  fun_induction takeAfter done cs with
  | case1 => cases h
  | case2 done rest' =>
      cases h
      exact Nat.lt_succ_self _
  | case3 => cases h
  | case4 done a b c d rest' n hex ih =>
      have shorter := ih h
      simp only [List.length_cons]
      omega
  | case5 => cases h
  | case6 => cases h
  | case7 done e rest' _ c escape ih =>
      have shorter := ih h
      simp only [List.length_cons]
      omega
  | case8 => cases h
  | case9 => cases h
  | case10 done c rest' _ _ _ _ _ ih =>
      have shorter := ih h
      simp only [List.length_cons]
      omega

namespace Numeral

theorem length_afterDigits_le (cs : List Char) : (afterDigits cs).length ≤ cs.length :=
  (List.dropWhile_sublist _).length_le

theorem length_afterDigits_lt {cs : List Char} (h : digits cs ≠ []) :
    (afterDigits cs).length < cs.length := by
  have split : (cs.takeWhile Char.isDigit).length + (afterDigits cs).length = cs.length := by
    rw [← List.length_append]
    exact congrArg List.length List.takeWhile_append_dropWhile
  have some_digit : 0 < (digits cs).length := List.length_pos_iff.mpr h
  unfold digits at some_digit
  rw [List.length_map] at some_digit
  omega

theorem length_takeWhole {cs rest : List Char} {ds : List Nat}
    (h : takeWhole cs = .ok (ds, rest)) : rest.length < cs.length := by
  unfold takeWhole at h
  split at h
  · cases h
  · cases h
  next ds' nonempty _ =>
    cases h
    exact length_afterDigits_lt nonempty

theorem length_takeFraction {cs rest : List Char} {ds : List Nat}
    (h : takeFraction cs = .ok (ds, rest)) : rest.length ≤ cs.length := by
  unfold takeFraction at h
  split at h
  · split at h
    · cases h
    · cases h
      exact Nat.le_succ_of_le (length_afterDigits_le _)
  · cases h
    exact Nat.le_refl _

theorem length_takeExponent {cs rest : List Char} {e : Option (Bool × List Nat)}
    (h : takeExponent cs = .ok (e, rest)) : rest.length ≤ cs.length := by
  unfold takeExponent at h
  split at h
  next c cs =>
    split at h
    · split at h
      next negative tail sign =>
        -- the digits start right away or after a sign
        have shorter : tail.length ≤ cs.length := by
          split at sign <;> cases sign
          · exact Nat.le_succ _
          · exact Nat.le_succ _
          · exact Nat.le_refl _
        split at h
        · cases h
        · cases h
          exact Nat.le_trans (length_afterDigits_le tail) (Nat.le_succ_of_le shorter)
    · cases h
      exact Nat.le_refl _
  · cases h
    exact Nat.le_refl _

theorem length_take {cs rest : List Char} {n : Numeral} (h : take cs = .ok (n, rest)) :
    rest.length < cs.length := by
  unfold take at h
  split at h
  next negative start sign =>
    have shorter : start.length ≤ cs.length := by
      split at sign <;> cases sign
      · exact Nat.le_succ _
      · exact Nat.le_refl _
    cases whole : takeWhole start with
    | error b => rw [whole] at h; cases h
    | ok w =>
        rw [whole] at h
        cases fraction : takeFraction w.2 with
        | error b => simp only [bind, Except.bind, fraction] at h; cases h
        | ok f =>
            cases exponent : takeExponent f.2 with
            | error b => simp only [bind, Except.bind, fraction, exponent] at h; cases h
            | ok e =>
                simp only [bind, Except.bind, fraction, exponent] at h
                cases h
                have afterWhole := length_takeWhole whole
                have afterFraction := length_takeFraction fraction
                have afterExponent := length_takeExponent exponent
                omega

end Numeral

namespace Token

theorem length_takeLiteral {word cs rest : List Char} (h : takeLiteral word cs = .ok rest) :
    rest.length ≤ cs.length := by
  fun_induction takeLiteral word cs with
  | case1 cs =>
      cases h
      exact Nat.le_refl _
  | case2 => cases h
  | case3 word c cs ih => exact Nat.le_succ_of_le (ih h)
  | case4 => cases h

theorem length_take {c : Char} {cs rest : List Char} {t : Token}
    (h : take c cs = .ok (t, rest)) : rest.length ≤ cs.length := by
  unfold take at h
  split at h
  · cases h
    exact Nat.le_refl _
  · split at h
    · obtain ⟨q, taken, same⟩ := ok_of_mapError_map h
      cases same
      exact Nat.le_of_lt (QuotedText.length_takeAfter [] cs taken)
    · split at h
      · obtain ⟨n, taken, same⟩ := ok_of_mapError_map h
        cases same
        exact Nat.le_of_lt_succ (Numeral.length_take taken)
      · split at h
        case h_4 => cases h
        all_goals
          obtain ⟨rest', taken, same⟩ := ok_of_mapError_map h
          cases same
          exact length_takeLiteral taken

theorem scanOnto_done (done : List Token) (fuel : Nat) (cs : List Char) :
    scanOnto done fuel cs = done.reverse ++ scanOnto [] fuel cs := by
  induction fuel generalizing done cs with
  | zero => cases cs <;> simp only [scanOnto, List.reverse_nil, List.append_nil]
  | succ fuel ih =>
      cases cs with
      | nil => simp only [scanOnto, List.reverse_nil, List.append_nil]
      | cons c rest =>
          simp only [scanOnto]
          split
          · exact ih done rest
          · split
            next t rest' _ =>
              rw [ih (t :: done), ih [t], List.reverse_cons, List.append_assoc]
              rfl
            next t _ =>
              rw [List.reverse_cons]
              rfl

theorem scanOnto_fuel (done : List Token) {n m : Nat} {cs : List Char} (hn : cs.length ≤ n)
    (hm : cs.length ≤ m) : scanOnto done n cs = scanOnto done m cs := by
  induction n generalizing done m cs with
  | zero =>
      have empty : cs = [] := List.eq_nil_of_length_eq_zero (Nat.le_zero.mp hn)
      subst empty
      simp only [scanOnto]
  | succ n ih =>
      cases cs with
      | nil => simp only [scanOnto]
      | cons c rest =>
          have positive : 0 < m := Nat.lt_of_lt_of_le (Nat.succ_pos _) hm
          obtain ⟨m, rfl⟩ := Nat.exists_eq_add_one_of_ne_zero (Nat.ne_of_gt positive)
          have restn : rest.length ≤ n := Nat.le_of_succ_le_succ hn
          have restm : rest.length ≤ m := Nat.le_of_succ_le_succ hm
          simp only [scanOnto]
          split
          · exact ih done restn restm
          · split
            next t rest' taken =>
              have shorter := length_take taken
              exact ih (t :: done) (Nat.le_trans shorter restn) (Nat.le_trans shorter restm)
            next => rfl

@[simp] theorem scan_nil : scan [] = [] := rfl

theorem scan_space {c : Char} (h : isSpace c = true) (rest : List Char) :
    scan (c :: rest) = scan rest := by
  simp only [scan, List.length_cons, scanOnto, h, if_true]

theorem scan_token {c : Char} {rest after : List Char} {t : Token} (h : isSpace c = false)
    (taken : take c rest = .ok (t, after)) : scan (c :: rest) = t :: scan after := by
  have shorter := length_take taken
  simp only [scan, List.length_cons, scanOnto, h, Bool.false_eq_true, if_false, taken]
  rw [scanOnto_done, scanOnto_fuel [] shorter (Nat.le_refl _)]
  rfl

end Token
end ServiceDoc.Json

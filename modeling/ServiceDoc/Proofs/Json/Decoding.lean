import ServiceDoc.Proofs.Json.Fit

/-! Decoding against a catalogue. Written data that fit are decoded as themselves; whatever a text
holds, what is decoded from it fits and is no deeper than the reader has room for. -/
namespace ServiceDoc.Json
namespace Catalogue
variable {ρ : Type} {c : Catalogue ρ} {levels : ρ → Nat}

/-! ### What was written -/

theorem decode_int {n : Int} {room : Nat} {shape : Shape ρ} (fits : c.Fits shape (.int n)) :
    c.decode room shape (.number (.written n)) = .ok (.int n) := by
  cases shape with
  | int32 =>
      have whole := Numeral.readInt_written "i32" (by decide : 32 ≤ 64) fits.1 fits.2
      simp only [decode, whole]
      rfl
  | int64 =>
      have whole := Numeral.readInt_written "i64" (by decide : 64 ≤ 64) fits.1 fits.2
      simp only [decode, whole]
      rfl
  | code what bound =>
      obtain ⟨low, high, below⟩ := fits
      simp only [decode, Numeral.readCode_written what low high below]
      rfl
  | text => cases fits
  | location => cases fits
  | bool => cases fits
  | float => cases fits
  | list item => cases fits
  | record r => cases fits

theorem decode_text {s : String} {room : Nat} {shape : Shape ρ} (fits : c.Fits shape (.text s)) :
    c.decode room shape (.text (.written s)) = .ok (.text s) := by
  have read : ((QuotedText.written s).read.map Datum.text) = .ok (.text s) := by
    rw [QuotedText.read_written]
    rfl
  cases shape with
  | text => exact read
  | location => exact read
  | bool => cases fits
  | int32 => cases fits
  | int64 => cases fits
  | float => cases fits
  | code what bound => cases fits
  | list item => cases fits
  | record r => cases fits

theorem has_cons (found : Found) (name : String) (d : Datum) (wanted : String) :
    Found.has ((name, d) :: found) wanted = (name == wanted || found.has wanted) := rfl

mutual

theorem decode_written (coherent : c.Coherent levels) : ∀ (d : Datum) {room : Nat}
    {shape : Shape ρ}, c.Fits shape d → d.floatFree = true → d.depth ≤ room →
      c.decode room shape (Tree.written d) = .ok d
  | .null, _, shape, fits, _, _ => by cases shape <;> cases fits
  | .float _, _, _, _, free, _ => by cases free
  | .bool _, _, shape, fits, _, _ => by
      cases shape with
      | bool => rfl
      | _ => cases fits
  | .int _, _, _, fits, _, _ => decode_int fits
  | .text _, _, _, fits, _, _ => decode_text fits
  | .list ds, 0, _, _, _, shallow => absurd shallow (Nat.not_succ_le_zero _)
  | .list ds, room + 1, shape, fits, free, shallow => by
      cases shape with
      | list item =>
          have items := decodeItems_written coherent ds fits free (Nat.le_of_succ_le_succ shallow)
          simp only [Tree.written, decode, items]
          rfl
      | _ => cases fits
  | .map pairs, 0, _, _, _, shallow => absurd shallow (Nat.not_succ_le_zero _)
  | .map pairs, room + 1, shape, fits, free, shallow => by
      cases shape with
      | record r =>
          have distinct := coherent.distinct r
          have members := decodeMembers_written coherent pairs (c.members r) []
            (fun m h => coherent.member?_eq h) distinct (fun _ _ => rfl) fits free
            (Nat.le_of_succ_le_succ shallow)
          rw [List.append_nil] at members
          simp only [Tree.written, decode, members, bind, Except.bind]
          exact congrArg Except.ok (complete_reverse (names_of_fitsMembers fits) distinct)
      | _ => cases fits

theorem decodeItems_written (coherent : c.Coherent levels) : ∀ (ds : List Datum) {room : Nat}
    {item : Shape ρ}, c.FitsItems item ds → Datum.floatFreeItems ds = true →
      Datum.depthItems ds ≤ room → c.decodeItems room item (Tree.writtenItems ds) = .ok ds
  | [], _, _, _, _, _ => rfl
  | d :: ds, room, item, fits, free, shallow => by
      obtain ⟨first, others⟩ := Bool.and_eq_true_iff.mp free
      obtain ⟨here, deeper⟩ := Nat.max_le.mp shallow
      have value := decode_written coherent d fits.1 first here
      have values := decodeItems_written coherent ds fits.2 others deeper
      simp only [Tree.writtenItems, decodeItems, value, values, bind, Except.bind]
      rfl

/-- The members `ms` of a record are still to come. -/
theorem decodeMembers_written (coherent : c.Coherent levels) {r : ρ} {room : Nat} :
    ∀ (pairs : List (String × Datum)) (ms : List (Member ρ)) (found : Found),
      (∀ m ∈ ms, c.member? r m.name = some m) → (ms.map Member.name).Nodup →
        (∀ m ∈ ms, found.has m.name = false) → c.FitsMembers ms pairs →
          Datum.floatFreeMembers pairs = true → Datum.depthMembers pairs ≤ room →
            c.decodeMembers room r found (Tree.writtenMembers pairs) = .ok (pairs.reverse ++ found)
  | [], _, _, _, _, _, _, _, _ => rfl
  | (name, d) :: pairs, [], _, _, _, _, fits, _, _ => by cases fits
  | (name, d) :: pairs, m :: ms, found, known, distinct, fresh, fits, free, shallow => by
      obtain ⟨first, others⟩ := Bool.and_eq_true_iff.mp free
      obtain ⟨here, deeper⟩ := Nat.max_le.mp shallow
      obtain ⟨rfl, stands, later⟩ := fits
      rw [List.map_cons, List.nodup_cons] at distinct
      have fresh_after : ∀ other ∈ ms, Found.has ((m.name, d) :: found) other.name = false := by
        intro other member
        have name_ne : m.name ≠ other.name := by
          intro same
          exact distinct.1 (same ▸ List.mem_map_of_mem member)
        rw [has_cons, beq_false_of_ne name_ne, fresh other (List.mem_cons_of_mem _ member)]
        rfl
      have rest := decodeMembers_written coherent pairs ms ((m.name, d) :: found)
        (fun other h => known other (List.mem_cons_of_mem _ h)) distinct.2 fresh_after later others
        deeper
      rw [List.reverse_cons, List.append_assoc, List.singleton_append, ← rest]
      simp only [Tree.writtenMembers, decodeMembers, QuotedText.read_written, bind, Except.bind,
        known m List.mem_cons_self, fresh m List.mem_cons_self, Bool.false_eq_true, if_false]
      rcases stands with ⟨nullable, fallback, rfl⟩ | fits
      · simp only [nullable, fallback, Tree.written, Tree.isNull, Bool.and_self, if_true]
      · simp only [isNull_written fits first, Bool.and_false, Bool.false_eq_true, if_false,
          decode_written coherent d fits first here]

end

/-! ### Whatever is decoded -/

theorem decode_number_fits {n : Numeral} {room : Nat} {shape : Shape ρ} {d : Datum}
    (h : c.decode room shape (.number n) = .ok d) : c.Fits shape d ∧ d.depth ≤ room := by
  cases shape with
  | int32 =>
      obtain ⟨k, read, rfl⟩ := ok_of_map h
      exact ⟨Numeral.readInt_range read, Nat.zero_le room⟩
  | int64 =>
      obtain ⟨k, read, rfl⟩ := ok_of_map h
      exact ⟨Numeral.readInt_range read, Nat.zero_le room⟩
  | float =>
      obtain ⟨x, -, rfl⟩ := ok_of_map h
      exact ⟨trivial, Nat.zero_le room⟩
  | code what bound =>
      obtain ⟨k, read, rfl⟩ := ok_of_map h
      exact ⟨Numeral.readCode_range read, Nat.zero_le room⟩
  | text => cases h
  | location => cases h
  | bool => cases h
  | list item => cases h
  | record r => cases h

theorem decode_text_fits {q : QuotedText} {room : Nat} {shape : Shape ρ} {d : Datum}
    (h : c.decode room shape (.text q) = .ok d) : c.Fits shape d ∧ d.depth ≤ room := by
  cases shape with
  | text =>
      obtain ⟨s, -, rfl⟩ := ok_of_map h
      exact ⟨trivial, Nat.zero_le room⟩
  | location =>
      obtain ⟨s, -, rfl⟩ := ok_of_map h
      exact ⟨trivial, Nat.zero_le room⟩
  | bool => cases h
  | int32 => cases h
  | int64 => cases h
  | float => cases h
  | code what bound => cases h
  | list item => cases h
  | record r => cases h

mutual

theorem decode_fits (coherent : c.Coherent levels) : ∀ (t : Tree) {room : Nat} {shape : Shape ρ}
    {d : Datum}, c.decode room shape t = .ok d → shape.Roomy levels room →
      c.Fits shape d ∧ d.depth ≤ room
  | .null, _, _, _, h, _ => by cases h
  | .broken _, _, _, _, h, _ => by cases h
  | .bool b, room, shape, d, h, _ => by
      cases shape with
      | bool =>
          cases h
          exact ⟨trivial, Nat.zero_le room⟩
      | _ => cases h
  | .number _, _, _, _, h, _ => decode_number_fits h
  | .text _, _, _, _, h, _ => decode_text_fits h
  | .list _ _, 0, shape, _, h, _ => by cases shape <;> cases h
  | .list ts cut, room + 1, shape, d, h, roomy => by
      cases shape with
      | list item =>
          obtain ⟨values, decoded, h⟩ := ok_of_bind h
          obtain ⟨-, -, h⟩ := ok_of_bind h
          cases h
          obtain ⟨fits, shallow⟩ := decodeItems_fits coherent ts decoded roomy
          exact ⟨fits, Nat.succ_le_succ shallow⟩
      | record r =>
          obtain ⟨found, decoded, h⟩ := ok_of_bind h
          cases h
          exact complete_fits coherent roomy (decodeInOrder_fits coherent roomy ts [] (c.members r)
            (fun _ h => h) (FoundFits.nil r room) decoded)
      | _ => cases h
  | .object _ _, 0, shape, _, h, _ => by cases shape <;> cases h
  | .object members cut, room + 1, shape, d, h, roomy => by
      cases shape with
      | record r =>
          obtain ⟨found, decoded, h⟩ := ok_of_bind h
          obtain ⟨-, -, h⟩ := ok_of_bind h
          cases h
          exact complete_fits coherent roomy
            (decodeMembers_fits coherent roomy members [] (FoundFits.nil r room) decoded)
      | _ => cases h

theorem decodeItems_fits (coherent : c.Coherent levels) : ∀ (ts : List Tree) {room : Nat}
    {item : Shape ρ} {ds : List Datum}, c.decodeItems room item ts = .ok ds →
      item.Roomy levels room → c.FitsItems item ds ∧ Datum.depthItems ds ≤ room
  | [], room, _, _, h, _ => by
      cases h
      exact ⟨trivial, Nat.zero_le room⟩
  | t :: ts, room, item, ds, h, roomy => by
      obtain ⟨value, decoded, h⟩ := ok_of_bind h
      obtain ⟨values, others, h⟩ := ok_of_bind h
      cases h
      have first := decode_fits coherent t decoded roomy
      have later := decodeItems_fits coherent ts others roomy
      exact ⟨⟨first.1, later.1⟩, Nat.max_le.mpr ⟨first.2, later.2⟩⟩

/-- The members `ms` of a record are still to come. -/
theorem decodeInOrder_fits (coherent : c.Coherent levels) {r : ρ} {room : Nat}
    (roomy : levels r ≤ room + 1) : ∀ (ts : List Tree) {cut : Option Break} (found : Found)
      (ms : List (Member ρ)) {all : Found}, (∀ m ∈ ms, m ∈ c.members r) →
        c.FoundFits r room found → c.decodeInOrder room found ms ts cut = .ok all →
          c.FoundFits r room all
  | [], _, _, _, _, _, fits, h => by
      obtain ⟨-, -, h⟩ := ok_of_bind h
      cases h
      exact fits
  | _ :: _, _, _, [], _, _, _, h => by cases h
  | t :: ts, cut, found, m :: ms, all, known, fits, h => by
      have member := known m List.mem_cons_self
      have named := coherent.member?_eq member
      have others : ∀ other ∈ ms, other ∈ c.members r :=
        fun other h => known other (List.mem_cons_of_mem _ h)
      simp only [decodeInOrder] at h
      obtain ⟨shallow, enough⟩ := coherent.room_of_mem roomy member
      split at h
      · exact decodeInOrder_fits coherent roomy ts _ ms others
          (FoundFits.cons named (coherent.fallback r m member) shallow fits) h
      · obtain ⟨value, decoded, h⟩ := ok_of_bind h
        have first := decode_fits coherent t decoded enough
        exact decodeInOrder_fits coherent roomy ts _ ms others
          (FoundFits.cons named (.inr first.1) first.2 fits) h

theorem decodeMembers_fits (coherent : c.Coherent levels) {r : ρ} {room : Nat}
    (roomy : levels r ≤ room + 1) : ∀ (pairs : List (QuotedText × Tree)) (found : Found)
      {all : Found}, c.FoundFits r room found → c.decodeMembers room r found pairs = .ok all →
        c.FoundFits r room all
  | [], _, _, fits, h => by
      cases h
      exact fits
  | (key, t) :: pairs, found, all, fits, h => by
      obtain ⟨name, -, h⟩ := ok_of_bind h
      cases named : c.member? r name with
      | none =>
          simp only [named] at h
          obtain ⟨-, -, h⟩ := ok_of_bind h
          exact decodeMembers_fits coherent roomy pairs found fits h
      | some m =>
          obtain ⟨member, rfl⟩ := mem_of_member? named
          obtain ⟨shallow, enough⟩ := coherent.room_of_mem roomy member
          simp only [named] at h
          split at h
          · cases h
          · split at h
            · exact decodeMembers_fits coherent roomy pairs _
                (FoundFits.cons named (coherent.fallback r m member) shallow fits) h
            · obtain ⟨value, decoded, h⟩ := ok_of_bind h
              have first := decode_fits coherent t decoded enough
              exact decodeMembers_fits coherent roomy pairs _
                (FoundFits.cons named (.inr first.1) first.2 fits) h

end

/-! ### Whole texts -/

theorem read_of_text (coherent : c.Coherent levels) {shape : Shape ρ} {d : Datum} {s : String}
    (text : Text.read s = ⟨Tree.written d, false⟩) (fits : c.Fits shape d)
    (free : d.floatFree = true) (shallow : d.depth ≤ depthLimit) : c.read shape s = .ok d := by
  have decoded := decode_written coherent d fits free shallow
  simp only [read, text, decoded, bind, Except.bind]
  rfl

theorem read_write (coherent : c.Coherent levels) {shape : Shape ρ} {d : Datum}
    (fits : c.Fits shape d) (free : d.floatFree = true) (shallow : d.depth ≤ depthLimit) :
    c.read shape (write d) = .ok d :=
  read_of_text coherent (Text.read_write d free) fits free shallow

theorem read_writeIndented (coherent : c.Coherent levels) {shape : Shape ρ} {d : Datum}
    (fits : c.Fits shape d) (free : d.floatFree = true) (shallow : d.depth ≤ depthLimit) :
    c.read shape (writeIndented d) = .ok d :=
  read_of_text coherent (Text.read_writeIndented d free) fits free shallow

theorem fits_of_read (coherent : c.Coherent levels) {shape : Shape ρ}
    (roomy : shape.Roomy levels depthLimit) {d : Datum} {s : String}
    (h : c.read shape s = .ok d) : c.Fits shape d ∧ d.depth ≤ depthLimit := by
  obtain ⟨value, decoded, h⟩ := ok_of_bind h
  have same : value = d := by
    split at h
    · cases h
    · exact Except.ok.inj h
  subst same
  exact decode_fits coherent _ decoded roomy

end Catalogue
end ServiceDoc.Json

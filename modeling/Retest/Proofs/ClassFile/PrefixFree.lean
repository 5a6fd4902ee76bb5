import Retest.Proofs.ClassFile.PassedOver

/-!
# Where class files end

No class file is the beginning of another one. Whatever is put behind a class file is found to be
too much, and counted; and if something is missing at its end, some read finds fewer octets than
it wants (`Retest.ClassFile.prefixFree_of_decode`).

The reason is that readers do not look ahead. At a given place, either a reader runs out of octets,
or what it does there is settled by them, success and fault alike, so that it does the same if more
octets follow (`Retest.Reader.Incremental`). Putting readers together preserves this. Only the end
of the whole file is looked for, and that comes last: the octets are read as a frame before any
bootstrap method or any code is taken apart, and in the frame an attribute is cut out by its length
before its body is looked into.
-/

namespace Retest

namespace Cursor

/-- The position of the end. -/
def stop (c : Cursor) : Nat := c.position + c.rest.length

/-- The same place, with more octets at the end. -/
def followedBy (c : Cursor) (tail : List UInt8) : Cursor := ⟨c.position, c.rest ++ tail⟩

end Cursor

namespace Reader

variable {α β : Type}

/-- Fewer octets are left at some place before the end than are wanted there. -/
def RunsOut (outcome : Except Fault α) (stop : Nat) : Prop :=
  ∃ place wanted, outcome = .error (.truncated place wanted) ∧ place ≤ stop ∧ stop < place + wanted

/-- **A reader is incremental** if, wherever it does not run out of octets, it would do the same
with more of them. -/
def Incremental (reader : Reader α) : Prop :=
  ∀ c, RunsOut (reader.run c) c.stop ∨
    (∀ tail, reader.run (c.followedBy tail) =
      (reader.run c).map fun found => (found.1, found.2.followedBy tail)) ∧
    ∀ a c', reader.run c = .ok (a, c') → c'.stop = c.stop

namespace Incremental

theorem pure (a : α) : Incremental (Pure.pure a : Reader α) := by
  refine fun c => .inr ⟨fun _ => rfl, fun b c' h => ?_⟩
  cases h
  rfl

theorem fail (fault : Fault) : Incremental (Reader.fail fault : Reader α) := by
  refine fun c => .inr ⟨fun _ => rfl, fun b c' h => ?_⟩
  cases h

/-- What is looked up beside the octets does not depend on them. -/
theorem lift (outcome : Except Fault α) : Incremental (liftM outcome : Reader α) := by
  cases outcome with
  | error fault => exact fail fault
  | ok a => exact pure a

theorem bind {reader : Reader α} {next : α → Reader β} (h : Incremental reader)
    (h' : ∀ a, Incremental (next a)) : Incremental (reader >>= next) := by
  intro c
  rcases h c with ⟨place, wanted, hrun, hplace⟩ | ⟨hmore, hstop⟩
  · refine .inl ⟨place, wanted, ?_, hplace⟩
    rw [StateT.run_bind, hrun]
    rfl
  · cases hrun : reader.run c with
    | error fault =>
      have hbind : (reader >>= next).run c = .error fault := by
        rw [StateT.run_bind, hrun]
        rfl
      refine .inr ⟨fun tail => ?_, fun b c' hb => ?_⟩
      · rw [StateT.run_bind, hmore tail, hrun, hbind]
        rfl
      · rw [hbind] at hb
        cases hb
    | ok found =>
      obtain ⟨a, c'⟩ := found
      have hend : c'.stop = c.stop := hstop a c' hrun
      have hbind : (reader >>= next).run c = (next a).run c' := by
        rw [StateT.run_bind, hrun]
        rfl
      rw [hbind, ← hend]
      refine (h' a c').imp_right fun hnext => ⟨fun tail => ?_, hnext.2⟩
      rw [StateT.run_bind, hmore tail, hrun]
      exact hnext.1 tail

theorem u1 : Incremental u1 := by
  rintro ⟨position, rest⟩
  match rest with
  | [] => exact .inl ⟨position, 1, rfl, Nat.le_refl _, Nat.lt_succ_self _⟩
  | a :: rest =>
    refine .inr ⟨fun _ => rfl, fun b c' h => ?_⟩
    cases h
    show position + 1 + rest.length = position + (rest.length + 1)
    omega

theorem u2 : Incremental u2 := by
  rintro ⟨position, rest⟩
  match rest with
  | [] | [_] => exact .inl ⟨position, 2, rfl, Nat.le_add_right _ _, by simp [Cursor.stop]⟩
  | a :: b :: rest =>
    refine .inr ⟨fun _ => rfl, fun n c' h => ?_⟩
    cases h
    show position + 2 + rest.length = position + (rest.length + 2)
    omega

theorem u4 : Incremental u4 := by
  rintro ⟨position, rest⟩
  match rest with
  | [] | [_] | [_, _] | [_, _, _] =>
    exact .inl ⟨position, 4, rfl, Nat.le_add_right _ _, by simp [Cursor.stop]⟩
  | a :: b :: d :: e :: rest =>
    refine .inr ⟨fun _ => rfl, fun n c' h => ?_⟩
    cases h
    show position + 4 + rest.length = position + (rest.length + 4)
    omega

theorem take (n : Nat) : Incremental (take n) := by
  rintro ⟨position, rest⟩
  rcases Nat.lt_or_ge rest.length n with hshort | hlong
  · have hcut : cut? n rest = none := by
      refine Option.eq_none_iff_forall_ne_some.2 fun parts hparts => ?_
      obtain ⟨rfl, hlength⟩ := cut?_eq_some_iff.1 hparts
      rw [List.length_append] at hshort
      omega
    refine .inl ⟨position, n, ?_, Nat.le_add_right _ _, Nat.add_lt_add_left hshort _⟩
    simp only [Reader.take, StateT.run, hcut]
    rfl
  · have hcut : ∀ tail, (Reader.take n).run ⟨position, rest ++ tail⟩ =
        .ok (rest.take n, ⟨position + n, rest.drop n ++ tail⟩) := by
      intro tail
      have hparts : cut? n (rest ++ tail) = some (rest.take n, rest.drop n ++ tail) := by
        refine cut?_eq_some_iff.2 ⟨?_, List.length_take_of_le hlong⟩
        rw [← List.append_assoc, List.take_append_drop]
      simp only [Reader.take, StateT.run, hparts]
    have hrun := hcut []
    rw [List.append_nil, List.append_nil] at hrun
    refine .inr ⟨fun tail => ?_, fun b c' h => ?_⟩
    · rw [hrun]
      exact hcut tail
    · rw [hrun] at h
      cases h
      show position + n + (rest.drop n).length = position + rest.length
      rw [List.length_drop]
      omega

theorem times {reader : Reader α} (h : Incremental reader) (n : Nat) :
    Incremental (times reader n) := by
  induction n with
  | zero => exact pure []
  | succ n ih => exact h.bind fun _ => ih.bind fun _ => pure _

theorem counted {reader : Reader α} (h : Incremental reader) : Incremental (counted reader) :=
  u2.bind fun n => h.times n.toNat

/-- What is looked up under an index. -/
theorem lookup (find : UInt16 → Except Fault α) : Incremental (do find (← Reader.u2)) :=
  u2.bind fun index => lift (find index)

theorem carriesOver : CarriesOver Incremental := ⟨pure, fail, bind, u1, u2, u4, take⟩

end Incremental

end Reader

open Reader

/-! ### The readers of a frame -/

/-- The body of an attribute is cut out before it is looked into, so its own reader cannot reach
what follows it. -/
theorem Attributes.incremental_readMore (pool : Pool) (n : Nat) (attributes : Attributes) :
    Incremental (readMore pool n attributes) := by
  induction n generalizing attributes with
  | zero => exact .pure _
  | succ n ih =>
    refine .bind .u2 fun index => .bind (.lift _) fun name => ?_
    exact .bind .u4 fun size => .bind (.take _) fun body => .bind (.lift _) fun more => ih more

theorem Attributes.incremental_read (pool : Pool) : Incremental (read pool) :=
  .bind .u2 fun _ => incremental_readMore pool _ _

theorem MemberEntry.incremental_read (pool : Pool) : Incremental (read pool) := by
  refine .bind .u2 fun access => .bind .u2 fun index => .bind (.lift _) fun name => ?_
  refine .bind .u2 fun index' => .bind (.lift _) fun descriptor => ?_
  exact .bind (Attributes.incremental_read pool) fun _ => .pure _

namespace ClassFile

namespace Frame

theorem incremental_readBelow (pool : Pool) : Incremental (readBelow pool) := by
  have member := MemberEntry.incremental_read pool
  refine .bind .u2 fun access => .bind .u2 fun _ => .bind (.lift _) fun name => ?_
  refine .bind .u2 fun _ => .bind (.lift _) fun superName => ?_
  refine .bind (.counted (.lookup _)) fun interfaces => ?_
  refine .bind (.counted member) fun fields => .bind (.counted member) fun methods => ?_
  exact .bind (Attributes.incremental_read pool) fun _ => .pure _

/-- All of a frame but its end. -/
theorem incremental_readParts : Incremental (readHead >>= readBelow) :=
  .bind (of_carriesOver_readHead Incremental.carriesOver) incremental_readBelow

/-- What is left over after the last part of a frame is a fault. -/
theorem run_close (frame : Frame) (position : Nat) {rest : List UInt8} (h : rest ≠ []) :
    frame.close.run ⟨position, rest⟩ = .error (.trailing rest.length) := by
  cases rest with
  | nil => exact absurd rfl h
  | cons a rest => rfl

end Frame

/-- A class file that is decoded was read to its last octet. -/
theorem exists_run_of_decode {bytes : List UInt8} {file : ClassFile} (h : decode bytes = .ok file) :
    ∃ frame position, (Frame.readHead >>= Frame.readBelow).run ⟨0, bytes⟩ =
      .ok (frame, ⟨position, []⟩) := by
  obtain ⟨frame, hread, -⟩ := bind_eq_ok_iff.1 h
  obtain ⟨c, hrun⟩ := of_within hread
  rw [Frame.read_eq] at hrun
  obtain ⟨frame', ⟨position, rest⟩, hparts, hclose⟩ := of_run_bind hrun
  obtain rfl : rest = [] := Frame.of_run_close hclose
  exact ⟨frame', position, hparts⟩

/-- What goes wrong with the frame is what is reported. -/
theorem decode_of_run_parts {bytes : List UInt8} {fault : Fault}
    (h : ((Frame.readHead >>= Frame.readBelow) >>= Frame.close).run ⟨0, bytes⟩ = .error fault) :
    decode bytes = .error fault := by
  rw [decode, within, Frame.read_eq, h]
  rfl

/-- What follows a class file is counted. -/
theorem decode_append {bytes tail : List UInt8} {file : ClassFile} (h : decode bytes = .ok file)
    (htail : tail ≠ []) : decode (bytes ++ tail) = .error (.trailing tail.length) := by
  obtain ⟨frame, position, hrun⟩ := exists_run_of_decode h
  have hparts : (Frame.readHead >>= Frame.readBelow).run ⟨0, bytes ++ tail⟩ =
      .ok (frame, ⟨position, tail⟩) := by
    rcases Frame.incremental_readParts ⟨0, bytes⟩ with ⟨_, _, hfail, -⟩ | ⟨hmore, -⟩
    · rw [hrun] at hfail
      cases hfail
    · refine (hmore tail).trans ?_
      rw [hrun]
      rfl
  refine decode_of_run_parts ?_
  rw [StateT.run_bind, hparts]
  exact Frame.run_close frame position htail

/-- A class file that breaks off runs out of octets. -/
theorem decode_front {front back : List UInt8} {file : ClassFile}
    (h : decode (front ++ back) = .ok file) (hback : back ≠ []) :
    RunsOut (decode front) front.length := by
  obtain ⟨frame, position, hrun⟩ := exists_run_of_decode h
  rcases Frame.incremental_readParts ⟨0, front⟩ with ⟨place, wanted, hout, hplace⟩ | ⟨hmore, -⟩
  · refine ⟨place, wanted, decode_of_run_parts ?_, ?_⟩
    · rw [StateT.run_bind, hout]
      rfl
    · simpa [Cursor.stop] using hplace
  · -- if the front were enough, the back would be left over
    exfalso
    have hall := (hmore back).symm.trans hrun
    cases hfront : (Frame.readHead >>= Frame.readBelow).run ⟨0, front⟩ with
    | error fault =>
      rw [hfront] at hall
      cases hall
    | ok found =>
      rw [hfront] at hall
      have hrest : found.2.rest ++ back = [] :=
        congrArg (fun p : Frame × Cursor => p.2.rest) (Except.ok.inj hall)
      exact hback (List.append_eq_nil_iff.1 hrest).2

/-- **No class file is the beginning of another one.** If anything follows the octets of a class
file, the fault is that so many octets are left over. If something is missing at their end, the
fault is that at some position in them fewer are left than are wanted there. -/
theorem prefixFree_of_decode {bytes : List UInt8} {file : ClassFile} (h : decode bytes = .ok file) :
    (∀ tail, tail ≠ [] → decode (bytes ++ tail) = .error (.trailing tail.length)) ∧
      ∀ front, front <+: bytes → front ≠ bytes → ∃ position wanted,
        decode front = .error (.truncated position wanted) ∧
          position ≤ front.length ∧ front.length < position + wanted := by
  refine ⟨fun tail htail => decode_append h htail, ?_⟩
  rintro front ⟨back, rfl⟩ hfront
  have hback : back ≠ [] := by
    rintro rfl
    exact hfront (List.append_nil front).symm
  exact decode_front h hback

/-- A class with a method, two octets too long and one octet too short. -/
theorem prefixFree_sampleTraced : (∃ file, decode sampleTraced.assemble = .ok file) ∧
    decode (sampleTraced.assemble ++ [0, 0]) = .error (.trailing 2) ∧
      ∃ position wanted,
        decode sampleTraced.assemble.dropLast = .error (.truncated position wanted) ∧
          position ≤ sampleTraced.assemble.dropLast.length ∧
            sampleTraced.assemble.dropLast.length < position + wanted := by
  have hsome : (decode sampleTraced.assemble).toOption.isSome := by decide +kernel
  obtain ⟨file, hfile⟩ := Option.isSome_iff_exists.1 hsome
  have hdecode : decode sampleTraced.assemble = .ok file := eq_ok_of_toOption hfile
  have hends := prefixFree_of_decode hdecode
  exact ⟨⟨file, hdecode⟩, hends.1 [0, 0] (List.cons_ne_nil _ _),
    hends.2 _ ⟨[0], by decide +kernel⟩ (by decide +kernel)⟩

end ClassFile

end Retest

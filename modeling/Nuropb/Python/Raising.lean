import Nuropb.Python.Conversion

/-! # What reading and converting raise -/
namespace Nuropb

open Library

/-- What reading JSON raises. -/
inductive ReadError : Exc → Prop
  | unreadable : ReadError .jsonDecodeError
  | tooDeep : ReadError Json.recursionError
  | value (reason : String) : ReadError (.valueError reason)

/-- What JSON and the builtin conversions raise. -/
inductive ConversionError : Exc → Prop
  | read {e : Exc} (h : ReadError e) : ConversionError e
  | overflow : ConversionError .overflowError
  | type : ConversionError .typeError

/-- Neither an RPC error nor what decoding bytes raises. -/
def Foreign (e : Exc) : Prop := e ≠ .unicodeDecodeError ∧ ∀ error, e ≠ .rpcError error

theorem ReadError.foreign {e : Exc} (h : ReadError e) : Foreign e := by
  cases h <;> simp [Foreign, Json.recursionError]

theorem ConversionError.foreign {e : Exc} (h : ConversionError e) : Foreign e := by
  cases h with
  | read h => exact h.foreign
  | overflow => simp [Foreign]
  | type => simp [Foreign]

namespace Json

theorem raises_unreadable {α : Type} : Raises ReadError (.error .jsonDecodeError : Except Exc α) :=
  raises_error .unreadable

theorem raises_scanString (rounds : Nat) (text : Text) : Raises ReadError (scanString rounds text) := by
  induction rounds generalizing text with
  | zero =>
    rw [scanString]
    exact raises_unreadable
  | succ rounds ih =>
    unfold scanString
    split
    · contradiction
    · exact raises_unreadable
    · exact raises_ok _
    · rename_i heq
      cases heq
      refine raises_bind (raises_orRaise .unreadable) ?_
      rintro ⟨c, rest⟩ -
      refine raises_bind (ih rest) ?_
      rintro ⟨cs, rest⟩ -
      exact raises_ok _
    · rename_i heq
      cases heq
      refine raises_bind (raises_raiseIf .unreadable) ?_
      rintro u -
      refine raises_bind (ih _) ?_
      rintro ⟨cs, rest⟩ -
      exact raises_ok _

theorem raises_scanNumber (negative : Bool) (text : Text) : Raises ReadError (scanNumber negative text) := by
  unfold scanNumber
  generalize hrest : (fun p : List Char × Text => _) = number
  dsimp only
  have hnumber : ∀ p, Raises ReadError (number p) := by
    rintro ⟨whole, rest⟩
    rw [← hrest]
    dsimp only
    split
    · refine raises_bind (raises_raiseIf (.value _)) ?_
      rintro u -
      exact raises_ok _
    · exact raises_ok _
  split
  · exact hnumber _
  · split
    · exact raises_unreadable
    · exact hnumber _

theorem raises_scanLiteral (text : Text) : Raises ReadError (scanLiteral text) := by
  unfold scanLiteral
  split
  · exact raises_ok _
  · split
    · exact raises_scanNumber true _
    · exact raises_scanNumber false _

variable {value : Text → Except Exc (PyVal × Text)}

theorem raises_scanMembers (hvalue : ∀ text, Raises ReadError (value text)) (rounds : Nat) (entries : Table)
    (text : Text) : Raises ReadError (scanMembers value rounds entries text) := by
  induction rounds generalizing entries text with
  | zero =>
    rw [scanMembers]
    · exact raises_unreadable
    · intros
      contradiction
  | succ rounds ih =>
    unfold scanMembers
    split
    · rename_i heq
      cases heq
      refine raises_bind (raises_scanString _ _) ?_
      rintro ⟨key, rest⟩ -
      dsimp only
      split
      · refine raises_bind (hvalue _) ?_
        rintro ⟨item, rest⟩ -
        dsimp only
        split
        · exact raises_ok _
        · exact ih _ _
        · exact raises_unreadable
      · exact raises_unreadable
    · exact raises_unreadable

theorem raises_scanItems (hvalue : ∀ text, Raises ReadError (value text)) (rounds : Nat) (items : List PyVal)
    (text : Text) : Raises ReadError (scanItems value rounds items text) := by
  induction rounds generalizing items text with
  | zero =>
    rw [scanItems]
    exact raises_unreadable
  | succ rounds ih =>
    rw [scanItems]
    refine raises_bind (hvalue text) ?_
    rintro ⟨item, rest⟩ -
    dsimp only
    split
    · exact raises_ok _
    · exact ih _ _
    · exact raises_unreadable

theorem raises_scanOnce (stack : Nat) (text : Text) : Raises ReadError (scanOnce stack text) := by
  induction stack generalizing text with
  | zero =>
    unfold scanOnce
    split
    · exact raises_error .tooDeep
    · exact raises_error .tooDeep
    · refine raises_bind (raises_scanString _ _) ?_
      rintro ⟨t, rest⟩ -
      exact raises_ok _
    · exact raises_scanLiteral _
  | succ stack ih =>
    unfold scanOnce
    split
    · dsimp only
      split
      · exact raises_ok _
      · exact raises_scanMembers ih _ _ _
    · dsimp only
      split
      · exact raises_ok _
      · exact raises_scanItems ih _ _ _
    · refine raises_bind (raises_scanString _ _) ?_
      rintro ⟨t, rest⟩ -
      exact raises_ok _
    · exact raises_scanLiteral _

theorem raises_loads (stack : Nat) (text : Text) : Raises ReadError (loads stack text) := by
  refine raises_bind (raises_raiseIf .unreadable) ?_
  rintro u -
  refine raises_bind (raises_scanOnce stack _) ?_
  rintro ⟨item, rest⟩ -
  refine raises_bind (raises_raiseIf .unreadable) ?_
  rintro u -
  exact raises_ok _

theorem raises_intText (n : Int) : Raises ConversionError (intText n) := by
  refine raises_bind (raises_raiseIf (.read (.value _))) ?_
  rintro u -
  exact raises_ok _

theorem raises_dumpValue (stack : Nat) (v : PyVal) : Raises ConversionError (dumpValue stack v) := by
  induction stack generalizing v with
  | zero =>
    unfold dumpValue
    split
    · exact raises_ok _
    · exact raises_ok _
    · exact raises_intText _
    · exact raises_ok _
    · exact raises_ok _
    · exact raises_error (.read .tooDeep)
    · exact raises_error (.read .tooDeep)
    · exact raises_error (.read .tooDeep)
    · contradiction
    · contradiction
    · contradiction
    all_goals exact raises_error .type
  | succ stack ih =>
    unfold dumpValue
    split
    · exact raises_ok _
    · exact raises_ok _
    · exact raises_intText _
    · exact raises_ok _
    · exact raises_ok _
    · contradiction
    · contradiction
    · contradiction
    · rename_i heq
      cases heq
      refine raises_bind (raises_mapM ?_) fun parts _ => raises_ok _
      rintro ⟨key, item⟩ -
      exact raises_bind (ih item) fun text _ => raises_ok _
    · rename_i heq
      cases heq
      exact raises_bind (raises_mapM fun item _ => ih item) fun parts _ => raises_ok _
    · rename_i heq
      cases heq
      exact raises_bind (raises_mapM fun item _ => ih item) fun parts _ => raises_ok _
    all_goals exact raises_error .type

end Json

theorem raises_truncFloat (bits : UInt64) : Raises ConversionError (truncFloat bits) := by
  unfold truncFloat
  dsimp only
  split
  · split
    · exact raises_error .overflow
    · exact raises_error (.read (.value _))
  · exact raises_ok _

theorem raises_pyInt (v : PyVal) : Raises ConversionError (pyInt v) := by
  unfold pyInt
  split
  · exact raises_ok _
  · exact raises_ok _
  · exact raises_truncFloat _
  · exact raises_ok _
  · exact raises_error (.read (.value _))
  · exact raises_error .overflow
  · exact raises_error .type

namespace Builtins

variable (builtins : Builtins)

theorem raises_intOfNumeral (numeral : Option (List Char)) : Raises ConversionError (intOfNumeral numeral) := by
  refine raises_bind (raises_orRaise (.read (.value _))) ?_
  rintro cs -
  dsimp only
  refine raises_bind (raises_orRaise (.read (.value _))) ?_
  rintro n -
  refine raises_bind (raises_raiseIf (.read (.value _))) ?_
  rintro u -
  exact raises_ok _

theorem raises_int (v : PyVal) : Raises ConversionError (builtins.int v) := by
  unfold int
  split
  · exact raises_intOfNumeral _
  · exact raises_intOfNumeral _
  · exact raises_pyInt v

theorem raises_repr (stack : Nat) (v : PyVal) : Raises ConversionError (builtins.repr stack v) := by
  induction stack generalizing v with
  | zero =>
    unfold repr
    split
    · exact raises_ok _
    · exact raises_ok _
    · exact Json.raises_intText _
    · exact raises_ok _
    · exact raises_ok _
    · exact raises_error (.read .tooDeep)
    · exact raises_error (.read .tooDeep)
    · contradiction
    · contradiction
    · exact raises_ok _
  | succ stack ih =>
    unfold repr
    split
    · exact raises_ok _
    · exact raises_ok _
    · exact Json.raises_intText _
    · exact raises_ok _
    · exact raises_ok _
    · contradiction
    · contradiction
    · rename_i heq
      cases heq
      refine raises_bind (raises_mapM ?_) fun parts _ => raises_ok _
      rintro ⟨key, item⟩ -
      exact raises_bind (ih item) fun text _ => raises_ok _
    · rename_i heq
      cases heq
      exact raises_bind (raises_mapM fun item _ => ih item) fun parts _ => raises_ok _
    · exact raises_ok _

theorem raises_str (stack : Nat) (v : PyVal) : Raises ConversionError (builtins.str stack v) := by
  unfold str
  split
  · exact raises_ok _
  · exact builtins.raises_repr stack v

end Builtins

end Nuropb

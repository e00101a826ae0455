import ScratchBird.Lib.LittleEndian

/-!
# Parsers that keep a record of what they read

A parser of a byte image is run here together with the record of the ranges it
reads. The bound tests are those of code that adds an offset and a length in
32-bit arithmetic and compares the sum with a limit. Such a sum can wrap round,
and then the test passes on a range that ends far behind the limit.

A record is *in bounds* when every range ends inside the image. Whether it is
can be followed through a parser one step at a time: a read adds its own range
as a condition, a test that is passed becomes a hypothesis of what follows, and
what a parser answers is known from the bytes alone.
-/

namespace ScratchBird.Lib

variable {image : List UInt8} {ε α β : Type} {p : Prop} {offset width limit : Nat}

/-- The sum of two 32-bit numbers, as 32-bit arithmetic has it. -/
def sum32 (a b : Nat) : Nat := (a + b) % 2 ^ 32

/-- A range of an image. -/
structure Access where
  offset : Nat
  width : Nat
  deriving DecidableEq

/-- Every range that was read ends inside the image. -/
def InBounds (image : List UInt8) (record : List Access) : Prop :=
  ∀ access ∈ record, access.offset + access.width ≤ image.length

instance (image : List UInt8) (record : List Access) : Decidable (InBounds image record) :=
  inferInstanceAs (Decidable (∀ access ∈ record, access.offset + access.width ≤ image.length))

/-- A parser with its record: it answers with both, whether it accepts or
refuses. -/
def ImageReader (ε α : Type) : Type := List UInt8 → List Access × Except ε α

namespace ImageReader

variable {f : α → ImageReader ε β} {m : ImageReader ε α} {outcome : Except ε α} {reason : ε}
  {a' : α} {b : β}

/-- Run the second parser on the result of the first, behind its record. -/
def andThen (m : ImageReader ε α) (f : α → ImageReader ε β) : ImageReader ε β := fun image =>
  match (m image).2 with
  | .ok a => ((m image).1 ++ (f a image).1, (f a image).2)
  | .error reason => ((m image).1, .error reason)

instance : Monad (ImageReader ε) where
  pure a := fun _ => ([], .ok a)
  bind := andThen

instance : LawfulMonad (ImageReader ε) := by
  refine LawfulMonad.mk' _ ?_ ?_ ?_
  · intro α m
    funext image
    show andThen m (fun a => pure (id a)) image = m image
    rw [andThen]
    rcases m image with ⟨record, reason | a⟩
    · rfl
    · exact Prod.ext (List.append_nil _) rfl
  · intro α β a f
    rfl
  · intro α β γ m f g
    funext image
    show andThen (andThen m f) g image = andThen m (fun a => andThen (f a) g) image
    simp only [andThen]
    rcases (m image).2 with reason | a
    · rfl
    · rcases hsecond : (f a image).2 with reason | b <;> simp [hsecond]

/-- A check that looks at nothing but what has been read already. -/
def check (outcome : Except ε α) : ImageReader ε α := fun _ => ([], outcome)

def require (p : Prop) [Decidable p] (reason : ε) : ImageReader ε Unit :=
  check (if p then .ok () else .error reason)

def refuse (reason : ε) : ImageReader ε α := check (.error reason)

def imageSize : ImageReader ε Nat := fun image => ([], .ok image.length)

def copy (offset width : Nat) : ImageReader ε (List UInt8) := fun image =>
  ([⟨offset, width⟩], .ok (bytesAt image offset width))

def load (offset width : Nat) : ImageReader ε Nat := fun image =>
  ([⟨offset, width⟩], .ok (littleValue (bytesAt image offset width)))

/-- The bound test in 32-bit arithmetic. -/
def requireFits (offset width limit : Nat) (reason : ε) : ImageReader ε Unit :=
  require (sum32 offset width ≤ limit) reason

/-! ## What a parser reads -/

/-- What a parser reads ends inside the image. -/
def Safe (image : List UInt8) (m : ImageReader ε α) : Prop := InBounds image (m image).1

/-- The second parser runs on what the first answers. -/
theorem safe_bind : Safe image (m >>= f) ↔
    Safe image m ∧ ∀ a, (m image).2 = .ok a → Safe image (f a) := by
  show InBounds image (andThen m f image).1 ↔ _
  rw [andThen]
  cases hresult : (m image).2 with
  | ok a => simp [Safe, InBounds, or_imp, forall_and]
  | error reason => simp [Safe]

theorem safe_check : Safe image (check outcome) := List.forall_mem_nil _

@[simp] theorem safe_pure (a : α) : Safe image (pure a : ImageReader ε α) := safe_check

@[simp] theorem safe_refuse : Safe image (refuse reason : ImageReader ε α) := safe_check

/-- What follows reads nothing outside the image. -/
theorem safe_bind_of_safe (h : ∀ a, Safe image (f a)) : Safe image (m >>= f) ↔ Safe image m :=
  safe_bind.trans (and_iff_left fun a _ => h a)

@[simp] theorem safe_bind_pure {g : α → β} :
    Safe image (m >>= fun a => pure (g a)) ↔ Safe image m :=
  safe_bind_of_safe fun _ => safe_pure _

@[simp] theorem safe_imageSize_bind {g : Nat → ImageReader ε β} :
    Safe image (imageSize >>= g) ↔ Safe image (g image.length) := Iff.rfl

@[simp] theorem safe_copy_bind {g : List UInt8 → ImageReader ε β} :
    Safe image (copy offset width >>= g) ↔
      offset + width ≤ image.length ∧ Safe image (g (bytesAt image offset width)) :=
  List.forall_mem_cons

@[simp] theorem safe_load_bind {g : Nat → ImageReader ε β} :
    Safe image (load offset width >>= g) ↔
      offset + width ≤ image.length ∧ Safe image (g (littleValue (bytesAt image offset width))) :=
  List.forall_mem_cons

@[simp] theorem safe_check_bind :
    Safe image (check outcome >>= f) ↔ ∀ a, outcome = .ok a → Safe image (f a) :=
  safe_bind.trans (and_iff_right safe_check)

@[simp] theorem safe_require_bind [Decidable p] {g : Unit → ImageReader ε β} :
    Safe image (require p reason >>= g) ↔ (p → Safe image (g ())) := by
  rw [require, safe_check_bind]
  by_cases hp : p <;> simp [hp, Unique.forall_iff]

/-! ## What a parser accepts -/

theorem accepts_bind : ((m >>= f) image).2 = .ok b ↔
    ∃ a, (m image).2 = .ok a ∧ (f a image).2 = .ok b := by
  show (andThen m f image).2 = .ok b ↔ _
  rw [andThen]
  cases (m image).2 <;> simp

@[simp] theorem accepts_pure {a : α} : ((pure a : ImageReader ε α) image).2 = .ok a' ↔ a = a' :=
  ⟨Except.ok.inj, congrArg Except.ok⟩

@[simp] theorem accepts_imageSize_bind {g : Nat → ImageReader ε β} :
    ((imageSize >>= g) image).2 = (g image.length image).2 := rfl

@[simp] theorem accepts_copy_bind {g : List UInt8 → ImageReader ε β} :
    ((copy offset width >>= g) image).2 = (g (bytesAt image offset width) image).2 := rfl

@[simp] theorem accepts_load_bind {g : Nat → ImageReader ε β} :
    ((load offset width >>= g) image).2 = (g (littleValue (bytesAt image offset width)) image).2 :=
  rfl

@[simp] theorem accepts_check_bind : ((check outcome >>= f) image).2 = .ok b ↔
    ∃ a, outcome = .ok a ∧ (f a image).2 = .ok b := accepts_bind

@[simp] theorem accepts_require_bind [Decidable p] {g : Unit → ImageReader ε β} :
    ((require p reason >>= g) image).2 = .ok b ↔ p ∧ (g () image).2 = .ok b := by
  rw [require, accepts_check_bind]
  by_cases hp : p <;> simp [hp, Unique.exists_iff]

end ImageReader

end ScratchBird.Lib

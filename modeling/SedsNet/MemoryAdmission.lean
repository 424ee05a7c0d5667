import SedsNet.Schema

/-! # Memory admission

The optional allocator-headroom probe of `memory_admission.rs`.  A probe is foreign code that may
answer each call differently; `call` numbers the calls of one operation. -/

namespace SedsNet

/-- The installed probe; an extended probe also sees the kind of work. -/
inductive AdmissionProbe where
  | absent
  | legacy (probe : (call additional largest : ℕ) → Bool)
  | extended (probe : (call additional largest work : ℕ) → Bool)

namespace AdmissionProbe

def workGeneral : ℕ := 0
def workSmallProtected : ℕ := 2

def supportsWorkKinds : AdmissionProbe → Bool
  | extended _ => true
  | _ => false

variable (p : AdmissionProbe)

def checkWork (call additional largest work : ℕ) : TelemetryResult Unit :=
  let allowed :=
    match p with
    | absent => true
    | legacy probe => probe call additional largest
    | extended probe => probe call additional largest work
  if allowed then .ok () else .error (.io "memory pressure")

def check (call additional largest : ℕ) : TelemetryResult Unit :=
  p.checkWork call additional largest workGeneral

def checkFrameKind (call len : ℕ) (ack : Bool) (work : ℕ) : TelemetryResult Unit :=
  if ack = true ∧ len ≤ 128 then p.check call 512 (satAdd len 32)
  else p.checkWork call (satAdd (satMul len 3) 2048) (satAdd len 32) work

def checkSmallProtectedDecode (call len : ℕ) : TelemetryResult Unit :=
  p.checkFrameKind call len false workSmallProtected

/-- The probe grants every request. -/
def Granting : Prop :=
  ∀ call additional largest work, p.checkWork call additional largest work = .ok ()

theorem granting_absent : Granting absent := fun _ _ _ _ => rfl

end AdmissionProbe

/-- Empty, untargeted topology and schema requests. -/
def protectedDiscoveryRequestShape (reg : Registry) (ty : DataType) (empty discoveryOnly : Bool)
    (owners : ℕ) (shape : Option MessageElement) : Bool :=
  empty && discoveryOnly && owners == 0 &&
    (ty == .discoveryTopologyRequest || ty == .discoverySchemaRequest) &&
    shape.all (· == (reg.messageMeta ty).element)

/-- A static element of at most sixteen bytes. -/
def isSmallByteElement : MessageElement → Bool
  | .static count .uint8 _ => decide (count.toNat ≤ 16)
  | _ => false

/-- Small reliable or targeted control traffic. -/
def protectedControlShape (reg : Registry) (ty : DataType) (endpoints owners : ℕ)
    (shape : Option MessageElement) (reliable managed : Bool) : Bool :=
  if 3 < endpoints ∨ 3 < owners ∨ (reliable = false ∧ owners = 0) then false
  else
    match reg.tryGetMessageMeta ty with
    | none => false
    | some m =>
      (decide (200 ≤ m.priority.toNat) || managed || owners != 0) && isSmallByteElement m.element &&
        shape.all isSmallByteElement

end SedsNet

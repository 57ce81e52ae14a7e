import ClassStub.AccessFlags
import ClassStub.Bytes.Buffer
import ClassStub.Bytes.Reader
import ClassStub.ClassName
import ClassStub.Code.Opcode
import ClassStub.Configuration
import ClassStub.Descriptor.Source
import ClassStub.Descriptor.Signature
import ClassStub.Constant.Pool
import ClassStub.Constant.Builder
import ClassStub.Annotation.Codec
import ClassStub.Annotation.Normal
import ClassStub.Code.Body
import ClassStub.Code.Disassembly
import ClassStub.ClassFile.Verification
import ClassStub.ClassFile.Draft
import ClassStub.Api.ByteSource
import ClassStub.Proofs.Codec.Reading
import ClassStub.Proofs.Codec.Interning
import ClassStub.Proofs.Codec.WrittenPool
import ClassStub.Proofs.Codec.Annotation
import ClassStub.Proofs.Codec.AttributeTable
import ClassStub.Proofs.Codec.Member
import ClassStub.Proofs.Codec.MemberRemains
import ClassStub.Proofs.Codec.Code
import ClassStub.Proofs.Codec.Draft
import ClassStub.Proofs.Codec.Decoded
import ClassStub.Proofs.Order.NormalForm
import ClassStub.Proofs.Stub.Written
import ClassStub.Proofs.Stub.Projection
import ClassStub.Proofs.Stub.Checking
import ClassStub.Proofs.Stub.OrderIndependence
import ClassStub.ClassFile.Equality
import ClassStub.Proofs.Stub.ImplementationIndependence
import ClassStub.Proofs.Stub.Idempotence
import ClassStub.Proofs.Descriptor.OuterClasses
import ClassStub.Proofs.Stub.Admission
import ClassStub.Proofs.Codec.Script
import ClassStub.Proofs.Stub.Bodies
import ClassStub.Proofs.Codec.PoolRuns
import ClassStub.Proofs.Code.SoundCode
import ClassStub.Proofs.Stub.ExposedTypes
import ClassStub.Proofs.Stub.DistinctMembers
import ClassStub.Proofs.Stub.Monotonicity
import ClassStub.Proofs.Codec.SelfDelimiting
import ClassStub.Proofs.Codec.Denotation
import ClassStub.Proofs.Codec.Layout
import ClassStub.Proofs.Codec.AttributeEdits
import ClassStub.Proofs.Code.SlotCounts
import ClassStub.Proofs.Codec.Refusals
import ClassStub.Proofs.Codec.TextLengths
import ClassStub.Proofs.Stub.Refusals
import ClassStub.Proofs.Stub.SlotOverflow
import ClassStub.Proofs.Codec.ReadPool
import ClassStub.Proofs.Codec.GrownPools
import ClassStub.Proofs.Codec.WrittenMethods
import ClassStub.Proofs.Code.ComputedLimits
import ClassStub.Proofs.Text.Surrogates
import ClassStub.Proofs.Text.UnitForms
import ClassStub.Proofs.Text.TextConstants
import ClassStub.Proofs.Order.Rearrangement
import ClassStub.Proofs.Codec.GrownAnnotations
import ClassStub.Proofs.Descriptor.Splitting
import ClassStub.Proofs.Stub.Offenders
import ClassStub.Proofs.Codec.PoolShape
import ClassStub.Proofs.Codec.FailedReads
import ClassStub.Proofs.Codec.GrownAttributes
import ClassStub.Proofs.Codec.FailedMembers
import ClassStub.Proofs.Descriptor.Agreement
import ClassStub.Proofs.Stub.ClassDescriptors
import ClassStub.Proofs.Configuration.RoundTrip
import ClassStub.Proofs.Descriptor.SafeScanning

/-!
# Instances that come first

Powers, the zero of sums, and the comparison of byte arrays have instances in the core library, and other libraries
bring further ones for the same operations. Here the ones of the core library come first, so that a definition means the
same whatever else is in view.
-/

namespace Stencil

attribute [scoped instance (2000)] instPowNat

attribute [scoped instance (2000)] Zero.ofOfNat0

attribute [scoped instance (2000)] ByteArray.instDecidableEq

end Stencil

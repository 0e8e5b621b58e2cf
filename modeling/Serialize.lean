import Serialize.Contracts.Validation
import Serialize.Contracts.Fitting
import Serialize.Contracts.Slack
import Serialize.Contracts.Measure
import Serialize.Contracts.SelfDelimiting
import Serialize.Contracts.Packer
import Serialize.Contracts.Room
import Serialize.Contracts.Atomicity
import Serialize.Contracts.Nesting
import Serialize.Contracts.Ranged
import Serialize.Contracts.Relative
import Serialize.Contracts.Strings
import Serialize.Contracts.FixedPoint
import Serialize.Contracts.Windows
import Serialize.Contracts.Surrogates
import Serialize.Contracts.Ordered
import Serialize.Contracts.Accuracy
import Serialize.Contracts.CopyString
import Serialize.Contracts.Attribution
import Serialize.Contracts.Builds
import Serialize.Contracts.ByValue
import Serialize.Format.ZigZag
import Serialize.Contracts.Unpacker
import Serialize.Contracts.Controls

namespace LivePreview.Document

def mountScriptLines : List String := [
  "// Epilogue: compile the embedded program, pick the entry component, mount it",
  "// behind an error boundary. Any failure here ends in a visible panel.",
  "(function (global) \x7b",
  "  'use strict';",
  "",
  "  var config = global.__LANTERN_CONFIG__ || \x7b\x7d;",
  "  var rootSymbols = config.rootSymbols || ['App'];",
  "  var recognized = config.recognized || [];",
  "  var rootEl = document.getElementById('root');",
  "",
  "  function showPanel(title, detail) \x7b",
  "    if (!rootEl) return;",
  "    while (rootEl.firstChild) rootEl.removeChild(rootEl.firstChild);",
  "    var panel = document.createElement('div');",
  "    panel.className = 'lantern-error';",
  "    var heading = document.createElement('h2');",
  "    heading.textContent = title;",
  "    var body = document.createElement('pre');",
  "    body.textContent = detail;",
  "    panel.appendChild(heading);",
  "    panel.appendChild(body);",
  "    rootEl.appendChild(panel);",
  "  \x7d",
  "",
  "  function fail(title, err) \x7b",
  "    var message = (err && err.message) || String(err);",
  "    var detail = (err && err.stack && err.stack.indexOf(message) >= 0) ? err.stack : message;",
  "    showPanel(title, detail);",
  "    if (global.__lantern) global.__lantern.mountFailed(title + ': ' + message);",
  "  \x7d",
  "",
  "  var missing = ['React', 'ReactDOM', 'Babel'].filter(function (name) \x7b return !global[name]; \x7d);",
  "  if (missing.length > 0) \x7b",
  "    fail('Preview runtime unavailable', new Error('Required libraries failed to load: ' + missing.join(', ')));",
  "    return;",
  "  \x7d",
  "",
  "  var sourceEl = document.getElementById('lantern-source');",
  "  var source = sourceEl ? sourceEl.textContent : '';",
  "",
  "  var compiled;",
  "  try \x7b",
  "    compiled = global.Babel.transform(source, \x7b",
  "      presets: ['react'],",
  "      sourceType: 'script',",
  "      filename: 'preview.jsx'",
  "    \x7d).code;",
  "  \x7d catch (err) \x7b",
  "    fail('Syntax error', err);",
  "    return;",
  "  \x7d",
  "",
  "  // The program's top-level declarations live in this function's scope.",
  "  // Recognized variables are copied back to the global scope so the data",
  "  // runtime sees user assignments (they win over extracted values).",
  "  var reexport = recognized.map(function (name) \x7b",
  "    return 'if (typeof ' + name + \" !== 'undefined') \x7b __lanternGlobal.\" + name + ' = ' + name + '; \x7d';",
  "  \x7d).join('\\n');",
  "  var candidates = rootSymbols.map(function (name) \x7b",
  "    return '(typeof ' + name + \" !== 'undefined' ? \" + name + ' : undefined)';",
  "  \x7d).join(', ');",
  "",
  "  var exports;",
  "  try \x7b",
  "    var program = new Function('__lanternGlobal', compiled + '\\n;\\n' + reexport + '\\nreturn [' + candidates + '];');",
  "    exports = program(global);",
  "  \x7d catch (err) \x7b",
  "    fail('Preview failed to evaluate', err);",
  "    return;",
  "  \x7d",
  "",
  "  var entry = null;",
  "  var entryName = null;",
  "  for (var i = 0; i < rootSymbols.length; i++) \x7b",
  "    if (exports[i] !== undefined && exports[i] !== null) \x7b",
  "      entry = exports[i];",
  "      entryName = rootSymbols[i];",
  "      break;",
  "    \x7d",
  "  \x7d",
  "  if (!entry) \x7b",
  "    fail('No component to mount', new Error('Define one of: ' + rootSymbols.join(', ')));",
  "    return;",
  "  \x7d",
  "",
  "  var React = global.React;",
  "  var h = React.createElement;",
  "",
  "  function LanternBoundary(props) \x7b",
  "    React.Component.call(this, props);",
  "    this.state = \x7b error: null \x7d;",
  "    this.retry = this.retry.bind(this);",
  "  \x7d",
  "  LanternBoundary.prototype = Object.create(React.Component.prototype);",
  "  LanternBoundary.prototype.constructor = LanternBoundary;",
  "  LanternBoundary.getDerivedStateFromError = function (error) \x7b",
  "    return \x7b error: error \x7d;",
  "  \x7d;",
  "  LanternBoundary.prototype.componentDidCatch = function (error, info) \x7b",
  "    console.error('Render error in ' + entryName + ':', error, (info && info.componentStack) || '');",
  "  \x7d;",
  "  LanternBoundary.prototype.retry = function () \x7b",
  "    this.setState(\x7b error: null \x7d);",
  "  \x7d;",
  "  LanternBoundary.prototype.render = function () \x7b",
  "    var error = this.state.error;",
  "    if (error) \x7b",
  "      return h('div', \x7b className: 'lantern-error' \x7d,",
  "        h('h2', null, 'Something went wrong'),",
  "        h('pre', null, String((error && error.message) || error)),",
  "        h('button', \x7b type: 'button', onClick: this.retry \x7d, 'Retry'));",
  "    \x7d",
  "    return this.props.children;",
  "  \x7d;",
  "",
  "  try \x7b",
  "    var tree = h(LanternBoundary, null, h(entry));",
  "    if (typeof global.ReactDOM.createRoot === 'function') \x7b",
  "      global.ReactDOM.createRoot(rootEl).render(tree);",
  "    \x7d else \x7b",
  "      global.ReactDOM.render(tree, rootEl);",
  "    \x7d",
  "  \x7d catch (err) \x7b",
  "    fail('Mount failed', err);",
  "  \x7d",
  "\x7d)(window);",
  ""]

def mountScript : String :=
  "\n".intercalate mountScriptLines

end LivePreview.Document
